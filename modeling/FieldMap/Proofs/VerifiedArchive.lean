import Mathlib.Data.List.Infix
import FieldMap.CommandLine.Run
import FieldMap.FileSystem.Tree
import FieldMap.Proofs.Placement

/-!
# The account of an archive

A verification of an archive goes through the entries whose names contain the filter,
and each of them has one of three outcomes (`IsOutcome`): its data cannot be taken out
of the archive, or it is a field and is checked, or it is none and is skipped. The
report keeps the reports of the first two kinds and the names of the third, each in the
order of the archive, so that no entry is lost and none is counted twice.

A call that verifies the archive succeeds if no report has a problem
(`run_archive_accounts`).
-/

namespace FieldMap

/-- **A text contains another** if that stands somewhere in it. -/
theorem Text.contains_iff {needle text : List Char} :
    Text.contains needle text = true ↔ needle <:+: text := by
  induction text with
  | nil => rw [contains, List.isEmpty_iff, List.infix_nil]
  | cons c text ih =>
    rw [contains, Bool.or_eq_true, ih, List.isPrefixOf_iff_prefix, List.infix_cons_iff]

namespace Verification

/-! ## The outcome of an entry -/

/-- **Whether a name contains the filter**, if there is one. -/
def Settings.Matches (settings : Settings) (name : String) : Prop :=
  ∀ text ∈ settings.filter, text.toList <:+: name.toList

theorem Settings.wants_iff {settings : Settings} {name : String} :
    settings.wants name = true ↔ settings.Matches name := by
  unfold wants Matches
  cases settings.filter with
  | none => exact iff_of_true rfl (fun _ h => nomatch h)
  | some text => simp only [Text.contains_iff, Option.mem_some_iff, forall_eq']

instance (settings : Settings) : DecidablePred settings.Matches := fun _ =>
  decidable_of_iff _ Settings.wants_iff

/-- **What becomes of an entry** of an archive. -/
inductive IsOutcome (settings : Settings) (archive : Archive) (entry : ArchiveEntry) :
    FileOutcome → Prop
  /-- Its data cannot be taken out, which is reported as the only problem. -/
  | unreadable {e : CodecError} (hread : archive.read entry = .error e) :
    IsOutcome settings archive entry (.verified ⟨entry.name, 0, 0, none, none, [.unreadable e]⟩)
  /-- Its data is a field, and the field is checked. -/
  | field {data : Bytes} {file : FieldFile} (hread : archive.read entry = .ok data)
    (hparse : (if settings.compressed then FieldFile.parseCompressed data
      else FieldFile.parse data) = .ok file) :
    IsOutcome settings archive entry (.verified (verifyField settings entry.name file))
  /-- Its data is no field. -/
  | skipped {data : Bytes} {e : CodecError} (hread : archive.read entry = .ok data)
    (hparse : (if settings.compressed then FieldFile.parseCompressed data
      else FieldFile.parse data) = .error e) :
    IsOutcome settings archive entry (.skipped entry.name e)

/-- **Every entry has exactly one outcome.** -/
theorem isOutcome_iff {settings : Settings} {archive : Archive} {entry : ArchiveEntry}
    {outcome : FileOutcome} :
    IsOutcome settings archive entry outcome ↔ verifyEntry settings archive entry = outcome := by
  unfold verifyEntry verifyFile parseField
  constructor
  · intro h
    cases h with
    | unreadable hread => rw [hread]; rfl
    | field hread hparse => rw [hread]; dsimp only; rw [hparse]
    | skipped hread hparse => rw [hread]; dsimp only; rw [hparse]
  · rintro rfl
    split
    · rename_i data hread
      split
      · rename_i file hparse
        exact .field hread hparse
      · rename_i e hparse
        exact .skipped hread hparse
    · rename_i e hread
      exact .unreadable hread

/-! ## The report -/

/-- The report that an outcome contributes. -/
def FileOutcome.report? : FileOutcome → Option FieldReport
  | verified report => some report
  | skipped _ _ => none

/-- The name that an outcome contributes to those that were skipped. -/
def FileOutcome.skippedName? : FileOutcome → Option String
  | verified _ => none
  | skipped name _ => some name

theorem fields_ofOutcomes (outcomes : List FileOutcome) :
    (Report.ofOutcomes outcomes).fields = outcomes.filterMap FileOutcome.report? := by
  unfold Report.ofOutcomes
  refine congrArg (List.filterMap · outcomes) (funext fun outcome => ?_)
  cases outcome <;> rfl

theorem skipped_ofOutcomes (outcomes : List FileOutcome) :
    (Report.ofOutcomes outcomes).skipped = outcomes.filterMap FileOutcome.skippedName? := by
  unfold Report.ofOutcomes
  refine congrArg (List.filterMap · outcomes) (funext fun outcome => ?_)
  cases outcome <;> rfl

/-- Each outcome is in one of the two lists. -/
theorem length_ofOutcomes (outcomes : List FileOutcome) :
    (Report.ofOutcomes outcomes).fields.length + (Report.ofOutcomes outcomes).skipped.length
      = outcomes.length := by
  rw [fields_ofOutcomes, skipped_ofOutcomes]
  induction outcomes with
  | nil => rfl
  | cons outcome rest ih =>
    cases outcome with
    | verified report =>
      simp only [List.filterMap_cons, FileOutcome.report?, FileOutcome.skippedName?,
        List.length_cons]
      omega
    | skipped name e =>
      simp only [List.filterMap_cons, FileOutcome.report?, FileOutcome.skippedName?,
        List.length_cons]
      omega

/-- The outcomes of the entries that match, in the order of the archive. -/
theorem outcomes_archive (settings : Settings) (path : String) (archive : Archive) :
    List.Forall₂ (IsOutcome settings archive)
      (archive.entries.filter fun entry => settings.Matches entry.name)
      (outcomes settings (.archive path archive)) := by
  have hwanted : (archive.entries.filter fun entry => settings.Matches entry.name)
      = wantedEntries settings archive := by
    exact List.filter_congr fun entry _ =>
      Bool.eq_iff_iff.mpr (decide_eq_true_iff.trans Settings.wants_iff.symm)
  rw [hwanted]
  unfold outcomes
  rw [List.forall₂_map_right_iff, List.forall₂_same]
  exact fun entry _ => isOutcome_iff.mpr rfl

/-- A report without failures has no problem in it. -/
theorem failed_eq_zero {report : Report} :
    report.failed = 0 ↔ ∀ field ∈ report.fields, field.problems = [] := by
  unfold Report.failed
  rw [List.countP_eq_zero]
  simp [FieldReport.isOk]

/-! ## The run -/

/-- A path whose file can be read leads to a file. -/
theorem kind?_of_read {tree : FileTree} {path : String} {raw : Bytes}
    (h : tree.read path = .ok raw) : tree.kind? path = some .file := by
  unfold FileTree.read at h
  obtain ⟨place, hplace, h⟩ := Except.bind_eq_ok.mp h
  unfold FileTree.kind? FileTree.entry?
  rw [hplace]
  dsimp only
  split at h
  · rename_i bytes hfile
    rw [hfile]
    rfl
  · exact nomatch h
  · exact nomatch h

/-- **A verification of an archive** leaves the files as they are. -/
theorem run_archive {tree : FileTree} {settings : Settings} {raw : Bytes} {archive : Archive}
    (hread : tree.read settings.inputPath = .ok raw) (hparse : Archive.parse raw = .ok archive) :
    (run FileTree.access settings).run tree
      = (.ok (verify settings (.archive settings.inputPath archive)), tree) := by
  have hkind : (FileTree.access.kind? settings.inputPath).run tree = pure (some .file, tree) :=
    congrArg (·, tree) (kind?_of_read hread)
  have hfile : (FileTree.access.read settings.inputPath).run tree = pure (.ok raw, tree) :=
    congrArg (·, tree) hread
  unfold run loadInput loadArchive
  simp only [StateT.run_bind, hkind, hfile, hparse, pure_bind, StateT.run_pure]
  rfl

end Verification

namespace CommandLine

open Verification

/-! ## The call -/

/-- **The settings that a call starts from**: those in the file that it names, or the
default. -/
def StartsFrom (tree : FileTree) : Option String → Settings → Prop
  | none, base => base = Settings.default
  | some path, base => (Settings.load FileTree.access path).run tree = (.ok base, tree)

/-- **A verification prints its report**, whatever the flags and the options are that lead
to its settings. -/
theorem run_verifyFiles {tree : FileTree} {flags : GlobalFlags} {options : VerifyOptions}
    {base settings : Settings} {report : Report} (hstart : StartsFrom tree options.config base)
    (hsettings : overrideSettings base flags.uncompressed options = settings)
    (hrun : (Verification.run FileTree.access settings).run tree = (.ok report, tree)) :
    (verifyFiles FileTree.access flags options).run tree
      = (printReport flags.json report, tree) := by
  have hreport : (Verification.run FileTree.access
      (overrideSettings base flags.uncompressed options)).run tree = pure (.ok report, tree) :=
    hsettings ▸ hrun
  unfold verifyFiles
  cases hconfig : options.config with
  | none =>
    rw [hconfig] at hstart
    obtain rfl : base = Settings.default := hstart
    simp only [StateT.run_bind, StateT.run_pure, pure_bind, hreport]
    rfl
  | some path =>
    rw [hconfig] at hstart
    have hload : (Settings.load FileTree.access path).run tree = pure (.ok base, tree) := hstart
    simp only [StateT.run_bind, hload, StateT.run_pure, pure_bind, hreport]
    rfl

/-- A call that verifies does nothing else. -/
theorem run_of_parse {tree : FileTree} {arguments : List String} {flags : GlobalFlags}
    {options : VerifyOptions} {parts : List (Except Failure String)}
    (hparse : parse arguments = some ⟨flags, .verify options⟩)
    (hrun : (verifyFiles FileTree.access flags options).run tree = (parts, tree)) :
    (run FileTree.access arguments).run tree = (Outcome.ofPrinted (printed parts), tree) := by
  have hverify : (verifyFiles FileTree.access flags options).run tree = pure (parts, tree) := hrun
  unfold run
  rw [hparse]
  dsimp only
  unfold output
  simp only [StateT.run_bind, hverify, pure_bind, StateT.run_pure]
  rfl

/-- Printing a report fails if a field of it did. -/
theorem status_printReport (json : Bool) (report : Report) :
    (Outcome.ofPrinted (printed (printReport json report))).status = 0 ↔ report.failed = 0 := by
  unfold printReport
  by_cases hfailed : 0 < report.failed
  · rw [if_pos hfailed]
    exact iff_of_false (fun heq => nomatch heq) hfailed.ne'
  · rw [if_neg hfailed]
    exact iff_of_true rfl (Nat.eq_zero_of_not_pos hfailed)

end CommandLine

namespace Verification

/-- **An archive is accounted for entry by entry.** Verifying it succeeds, whatever its
entries are, and leaves the files as they are. The entries that match the filter have
one outcome each, in the order of the archive: the reports of the report are those of
the entries that could not be taken out or that were checked, and the names are those
of the others. Whatever the flags and the options of a call are that lead to these
settings, it succeeds if no report has a problem. -/
theorem run_archive_accounts {tree : FileTree} {settings : Settings} {raw : Bytes}
    {archive : Archive} (hread : tree.read settings.inputPath = .ok raw)
    (hparse : Archive.parse raw = .ok archive) :
    ∃ report, (run FileTree.access settings).run tree = (.ok report, tree)
      ∧ (∃ outcomes, List.Forall₂ (IsOutcome settings archive)
          (archive.entries.filter fun entry => settings.Matches entry.name) outcomes
        ∧ report.fields = outcomes.filterMap FileOutcome.report?
        ∧ report.skipped = outcomes.filterMap FileOutcome.skippedName?)
      ∧ report.fields.length + report.skipped.length
        = archive.entries.countP (fun entry => settings.Matches entry.name)
      ∧ ∀ flags options base, CommandLine.StartsFrom tree options.config base →
        CommandLine.overrideSettings base flags.uncompressed options = settings →
          ∃ parts, (CommandLine.verifyFiles FileTree.access flags options).run tree = (parts, tree)
            ∧ ((CommandLine.Outcome.ofPrinted (CommandLine.printed parts)).status = 0
              ↔ ∀ field ∈ report.fields, field.problems = [])
            ∧ ∀ arguments, CommandLine.parse arguments = some ⟨flags, .verify options⟩ →
              (CommandLine.run FileTree.access arguments).run tree
                = (.ofPrinted (CommandLine.printed parts), tree) := by
  have hrun := run_archive hread hparse
  have houtcomes := outcomes_archive settings settings.inputPath archive
  refine ⟨_, hrun, ⟨_, houtcomes, fields_ofOutcomes _, skipped_ofOutcomes _⟩, ?_,
    fun flags options base hstart hsettings => ?_⟩
  · rw [verify, length_ofOutcomes, ← houtcomes.length_eq, List.countP_eq_length_filter]
  · have hfiles := CommandLine.run_verifyFiles hstart hsettings hrun
    refine ⟨_, hfiles, ?_, fun arguments hcall => CommandLine.run_of_parse hcall hfiles⟩
    rw [← failed_eq_zero]
    exact CommandLine.status_printReport flags.json _

/-- A script section with one entity, whose only script ends at once. -/
def oneScript : List UInt8 :=
  [2, 5, 1, 0, 105, 0, 0, 0, 0, 2] ++ List.replicate 6 0 ++ [97, 98, 0, 0, 0, 0, 0, 0]
    ++ [109, 100, 49, 0, 0, 0, 0, 0] ++ [99, 108, 0, 0, 0, 0, 0, 0]
    ++ (List.replicate 32 [104, 0]).flatten ++ [0x00] ++ [0, 0]

/-- A field file with these scripts and without encounters. Its other sections are one and
the same place, where nothing is. -/
def soundField : List UInt8 :=
  [0, 0, 9, 0, 0, 0] ++ [42, 0, 0, 0] ++ (List.replicate 5 [205, 0, 0, 0]).flatten
    ++ [153, 0, 0, 0] ++ (List.replicate 2 [205, 0, 0, 0]).flatten
    ++ [107, 0, 0, 0] ++ oneScript ++ [48, 0, 0, 0] ++ List.replicate 48 0 ++ [0, 0, 0, 0]

/-- What stands in front of that field in a file of four entries: one that lies outside, one
that is no field, the field, and one of another name. -/
def otherEntries : List UInt8 :=
  List.replicate 12 65 ++ [4, 0, 0, 0]
    ++ ([109, 97] ++ List.replicate 18 0 ++ [0, 4, 0, 0] ++ [0, 0, 0])
    ++ ([109, 98] ++ List.replicate 18 0 ++ [124, 0, 0, 0] ++ [0, 0, 0])
    ++ ([109, 99] ++ List.replicate 18 0 ++ [150, 0, 0, 0] ++ [0, 0, 0])
    ++ ([99] ++ List.replicate 19 0 ++ [124, 0, 0, 0] ++ [0, 0, 0])
    ++ (List.replicate 20 0 ++ [2, 0, 0, 0] ++ [1, 2])
    ++ (List.replicate 20 0 ++ [209, 0, 0, 0])

/-- The file of these entries. -/
def fourEntries : Bytes := (otherEntries ++ soundField).toArray

/-- These entries as the only file. -/
def oneArchive : FileTree := ⟨[(["lgp"], fourEntries)], []⟩

/-- The scripts and encounters of the entries with one letter in their names. -/
def onlyM : Settings := ⟨"lgp", false, true, true, false, some "m"⟩

/-- The field is the last part of the file, and is taken out of the archive as it is. -/
theorem read_soundField {archive : Archive} (hparse : Archive.parse fourEntries = .ok archive) :
    archive.read ⟨"mc", 150⟩ = .ok soundField.toArray := by
  have hdata : archive.data = fourEntries := by
    unfold Archive.parse at hparse
    obtain ⟨_, -, hparse⟩ := Except.bind_eq_ok.mp hparse
    obtain ⟨_, -, hparse⟩ := Except.bind_eq_ok.mp hparse
    obtain ⟨_, -, hparse⟩ := Except.bind_eq_ok.mp hparse
    rw [← Except.ok.inj hparse]
  have hsize : fourEntries.readLong .entrySize 170 = .ok 209 := by decide +kernel
  have hfront : otherEntries.length = 174 := by decide +kernel
  have hlength : soundField.length = 209 := by decide +kernel
  have hstands : fourEntries.HoldsAt (0 + 174) soundField :=
    (Bytes.HoldsAt.toArray _).behind hfront
  unfold Archive.read
  rw [hdata]
  exact Except.bind_eq_ok.mpr ⟨209, hsize, hstands.slice hlength _⟩

/-- What becomes of the entries that match: the first is reported as unreadable, the second
skipped, and the third found to be in order. -/
theorem verify_fourEntries {archive : Archive} (hparse : Archive.parse fourEntries = .ok archive) :
    verify onlyM (.archive onlyM.inputPath archive)
      = ⟨[⟨"ma", 0, 0, none, none, [.unreadable (.truncated .entrySize 1044 4 0)]⟩,
          ⟨"mc", 1, 0, some true, none, []⟩], ["mb"]⟩ := by
  have hparts : (Archive.parse fourEntries).map (fun archive =>
        (wantedEntries onlyM archive, verifyEntry onlyM archive ⟨"ma", 1024⟩,
          verifyEntry onlyM archive ⟨"mb", 124⟩))
      = .ok ([⟨"ma", 1024⟩, ⟨"mb", 124⟩, ⟨"mc", 150⟩],
          .verified ⟨"ma", 0, 0, none, none, [.unreadable (.truncated .entrySize 1044 4 0)]⟩,
          .skipped "mb" (.truncated .fieldHeader 0 42 2)) := by decide +kernel
  have hfield : verifyFile onlyM "mc" soundField.toArray
      = .verified ⟨"mc", 1, 0, some true, none, []⟩ := by decide +kernel
  have hlast : verifyEntry onlyM archive ⟨"mc", 150⟩
      = .verified ⟨"mc", 1, 0, some true, none, []⟩ := by
    unfold verifyEntry
    rw [read_soundField hparse]
    exact hfield
  rw [hparse] at hparts
  obtain ⟨hwanted, hothers⟩ := Prod.mk.inj (Except.ok.inj hparts)
  obtain ⟨hfirst, hsecond⟩ := Prod.mk.inj hothers
  unfold verify outcomes
  dsimp only
  rw [hwanted, List.map_cons, List.map_cons, List.map_singleton, hfirst, hsecond, hlast]
  rfl

/-- Of four entries one does not match; of the others one is reported for a problem, so that
the call fails. -/
theorem run_archive_accounts_fourEntries :
    (run FileTree.access onlyM).run oneArchive
        = (.ok ⟨[⟨"ma", 0, 0, none, none, [.unreadable (.truncated .entrySize 1044 4 0)]⟩,
            ⟨"mc", 1, 0, some true, none, []⟩], ["mb"]⟩, oneArchive)
      ∧ ∃ parts, (CommandLine.verifyFiles FileTree.access ⟨true, false⟩
            ⟨some "lgp", none, some "m", true⟩).run oneArchive = (parts, oneArchive)
        ∧ (CommandLine.Outcome.ofPrinted (CommandLine.printed parts)).status ≠ 0
        ∧ (CommandLine.run FileTree.access
            ["--uncompressed", "verify", "lgp", "--filter=m", "--skip-backgrounds"]).run oneArchive
          = (.ofPrinted (CommandLine.printed parts), oneArchive) := by
  have hread : oneArchive.read onlyM.inputPath = .ok fourEntries := rfl
  obtain ⟨archive, hparse⟩ := Except.isOk_iff.mp
    (by decide +kernel : (Archive.parse fourEntries).isOk = true)
  obtain ⟨report, hrun, -, -, hcall⟩ := run_archive_accounts hread hparse
  have hreport := hrun
  rw [run_archive hread hparse, verify_fourEntries hparse] at hreport
  obtain rfl := Except.ok.inj (Prod.mk.inj hreport).1
  obtain ⟨parts, hparts, hstatus, hrunCall⟩ :=
    hcall ⟨true, false⟩ ⟨some "lgp", none, some "m", true⟩ Settings.default rfl rfl
  refine ⟨hrun, parts, hparts, fun hzero => ?_, hrunCall _ (by decide +kernel)⟩
  exact absurd (hstatus.mp hzero _ List.mem_cons_self) (List.cons_ne_nil _ _)

end Verification

end FieldMap
