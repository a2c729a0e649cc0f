import FieldMap.FileSystem.Tree
import FieldMap.Journal.Verification
import FieldMap.Main
import FieldMap.Proofs.BitLayout
import FieldMap.Proofs.Shape
import FieldMap.Proofs.PackedOperands
import FieldMap.Proofs.Encoding
import FieldMap.Proofs.EncodedInstructions
import FieldMap.Proofs.Jumps
import FieldMap.Proofs.LabelRuns
import FieldMap.Proofs.Labels
import FieldMap.Proofs.RoundTrip
import FieldMap.Proofs.NormalForm
import FieldMap.Proofs.Numerals
import FieldMap.Proofs.Words
import FieldMap.Proofs.Mnemonics
import FieldMap.Proofs.PrintedLines
import FieldMap.Proofs.Printable
import FieldMap.Proofs.ListingRoundTrip
import FieldMap.Proofs.CheckedInstructions
import FieldMap.Proofs.ParsedListing
import FieldMap.Proofs.AssembledBytecode
import FieldMap.Proofs.TileRecords
import FieldMap.Proofs.TileSlots
import FieldMap.Proofs.TileMap
import FieldMap.Proofs.TileRefinement
import FieldMap.Proofs.Placement
import FieldMap.Proofs.KnownLayout
import FieldMap.Proofs.LzsHistory
import FieldMap.Proofs.SavedFieldFile
import FieldMap.Proofs.StoredPalettes
import FieldMap.Proofs.StoredLayers
import FieldMap.Proofs.StoredBackground
import FieldMap.Proofs.JumpTargets
import FieldMap.Proofs.StoredDistance
import FieldMap.Proofs.SymbolicForm
import FieldMap.Proofs.LastEdits
import FieldMap.Proofs.StoredEncounters
import FieldMap.Proofs.VerifiedField
import FieldMap.Proofs.DumpedScripts
import FieldMap.Proofs.VerifiedArchive
import FieldMap.Proofs.PrefixFreeCode
import FieldMap.Proofs.ResolvedJumps
import FieldMap.Proofs.IndependentEdits
import FieldMap.Proofs.CutPayload
import FieldMap.Proofs.UntouchedBytes
import FieldMap.Proofs.ScriptSlices
import FieldMap.Proofs.RepeatedStarts
import FieldMap.Proofs.ConsecutiveReads
import FieldMap.Proofs.SectionTables
import FieldMap.Proofs.DialogTexts
import FieldMap.Proofs.DeclaredPalettes
import FieldMap.Proofs.PageTexels
import FieldMap.Proofs.JoinedListings
import FieldMap.Proofs.NumberTokens
import FieldMap.Proofs.StoredArchives
import FieldMap.Proofs.PrintedTexts
import FieldMap.Proofs.OperandPlaces
import FieldMap.Proofs.EncodingOutcomes
import FieldMap.Proofs.DumpedTexts
import FieldMap.Proofs.OperandBits
import FieldMap.Proofs.PackedBits
import FieldMap.Proofs.CheckedOperands
import FieldMap.Proofs.Ladders
