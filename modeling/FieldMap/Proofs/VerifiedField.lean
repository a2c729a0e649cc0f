import FieldMap.Proofs.RoundTrip
import FieldMap.Proofs.ScriptSlices
import FieldMap.Proofs.StoredEncounters
import FieldMap.Verification.Field

/-!
# The verdict on a field

A field is checked in three parts, and each part is a question about the bytes of a
section. A script is *sound* if it can be decoded and its jumps lead to boundaries: the
way through the symbolic form fails for no other reason, since no script of a section is
so long that its labels would share a number (`scriptProblem?_eq_none`). The
encounter section is written back as it was whenever it can be read, so only its length
counts (`checkEncounters_eq`). The background has to be readable.

The report on a field puts the findings of the three parts side by side. There are as
many problems as scripts that failed, and one more for each section that could not be
read (`verifyField_verdict`).
-/

namespace FieldMap

/-! ## Sound scripts -/

/-- **Sound bytecode**: it can be decoded, and every jump leads to the start of an
instruction or to the end. -/
def Script.IsSound (bytes : List UInt8) : Prop :=
  ∃ script, Script.decode bytes = .ok script
    ∧ ∀ i target, script.JumpsTo i target → script.IsBoundary target

/-- Bytecode is sound if labels can be inserted into its script. -/
theorem Script.isSound_iff {bytes : List UInt8} :
    Script.IsSound bytes
      ↔ ∃ script symbolic, Script.decode bytes = .ok script ∧ script.insertLabels = .ok symbolic := by
  refine exists_congr fun script => ?_
  rw [exists_and_left]
  exact and_congr_right fun hscript => (exists_insertLabels_iff (isLabel_of_decode hscript)).symm

/-- **Sound bytecode survives its symbolic form**, and no other does, if it is not too
long for its labels to be told apart. -/
theorem Script.roundTrip_eq_ok {bytes : List UInt8} (hlength : bytes.length ≤ 2 ^ 33) :
    Script.roundTrip bytes = .ok () ↔ Script.IsSound bytes := by
  rw [Script.isSound_iff, Script.roundTrip_eq_ok_iff]
  refine exists₂_congr fun script symbolic => and_congr_right fun hscript => and_iff_left ?_
  have hmarked := Script.two_mul_length_marked_le hscript
  omega

/-- **A script section whose scripts are sound**: it can be parsed, and so can every
script that it lists. -/
def ScriptSection.IsSound (data : Bytes) : Prop :=
  ∃ s, ScriptSection.parse data = .ok s
    ∧ ∀ slot ∈ s.scripts, ∃ bytes : Bytes, slot.bytecode = .ok bytes ∧ Script.IsSound bytes.toList

namespace Verification

/-! ## The three parts -/

/-- **A script of a section has no problem** if it is sound. -/
theorem scriptProblem?_eq_none {data : Bytes} {s : ScriptSection} {slot : ScriptSlot}
    (hparse : ScriptSection.parse data = .ok s) (hslot : slot ∈ s.scripts) :
    scriptProblem? s slot = none
      ↔ ∃ bytes : Bytes, slot.bytecode = .ok bytes ∧ Script.IsSound bytes.toList := by
  unfold scriptProblem?
  cases hbytes : slot.bytecode with
  | error e => simp [Except.bind]
  | ok bytes =>
    have hsize := ScriptSection.size_lt_of_mem_scripts hparse hslot hbytes
    have hlength : bytes.toList.length ≤ 2 ^ 33 := by
      rw [Array.length_toList]
      omega
    simp only [Except.bind, Except.ok.injEq, exists_eq_left', ← Script.roundTrip_eq_ok hlength]
    cases Script.roundTrip bytes.toList <;> simp

/-- What is wrong with a script counts as a problem of that script. -/
theorem isScript_of_scriptProblem? {s : ScriptSection} {slot : ScriptSlot} {problem : Problem}
    (h : scriptProblem? s slot = some problem) : problem.isScript = true := by
  unfold scriptProblem? at h
  split at h
  · exact nomatch h
  · rw [← Option.some.inj h]
    rfl

theorem checkScripts_eq_nil {data : Bytes} :
    (checkScripts data).2 = [] ↔ ScriptSection.IsSound data := by
  unfold checkScripts ScriptSection.IsSound
  cases hparse : ScriptSection.parse data with
  | error e => simp
  | ok s =>
    simp only [List.filterMap_eq_nil_iff, Except.ok.injEq, exists_eq_left']
    exact forall₂_congr fun slot hslot => scriptProblem?_eq_none hparse hslot

/-- Every problem is that of a script, unless there is no telling where the scripts
are. -/
theorem length_checkScripts (data : Bytes) :
    (checkScripts data).2.length
      = (checkScripts data).2.countP Problem.isScript + (!(ScriptSection.parse data).isOk).toNat := by
  unfold checkScripts
  cases ScriptSection.parse data with
  | error e => rfl
  | ok s =>
    refine (List.countP_eq_length.mpr fun problem hmem => ?_).symm
    obtain ⟨slot, -, hslot⟩ := List.mem_filterMap.mp hmem
    exact isScript_of_scriptProblem? hslot

theorem countP_checkScripts_le (data : Bytes) :
    (checkScripts data).2.countP Problem.isScript ≤ (checkScripts data).1 := by
  unfold checkScripts
  cases ScriptSection.parse data with
  | error e => exact Nat.le_refl 0
  | ok s => exact List.countP_le_length.trans (List.length_filterMap_le ..)

/-- **Only the length of the encounter section counts.** -/
theorem checkEncounters_eq (data : Bytes) :
    checkEncounters data
      = if data.size = EncounterSection.length then (true, [])
        else (false, [.encounters (.wrongSize .encounterSection EncounterSection.length data.size)]) := by
  unfold checkEncounters
  cases h : EncounterSection.parse data with
  | ok encounters =>
    dsimp only
    rw [if_pos (EncounterSection.parse_eq_ok.mp h).1, EncounterSection.save_of_parse h, beq_self_eq_true]
  | error e =>
    unfold EncounterSection.parse at h
    split_ifs at h with hsize
    rw [if_neg hsize, Except.error.inj h]

theorem length_checkBackground (data paletteData : Bytes) :
    (checkBackground data paletteData).2.length
      = (!((BackgroundStore.ofBytes data).decode paletteData).1.isOk).toNat := by
  unfold checkBackground
  cases ((BackgroundStore.ofBytes data).decode paletteData).1 <;> rfl

/-! ## The report -/

section

variable (settings : Settings) (name : String) (file : FieldFile)

/-- What is found out about the scripts of a field, if the settings ask for it. -/
def scriptFindings : Nat × List Problem :=
  if settings.checkScripts then checkScripts file.scripts else (0, [])

/-- What is found out about the encounters of a field, if the settings ask for it. -/
def encounterFindings : Option Bool × List Problem :=
  if settings.checkEncounters then (checkEncounters file.encounter).map some id else (none, [])

/-- What is found out about the background of a field, if the settings ask for it. -/
def backgroundFindings : Option Nat × List Problem :=
  if settings.checkBackgrounds then checkBackground file.background file.palette else (none, [])

/-- **A report puts the findings side by side.** -/
theorem verifyField_eq :
    verifyField settings name file
      = ⟨name, (scriptFindings settings file).1,
        (scriptFindings settings file).2.countP Problem.isScript,
        (encounterFindings settings file).1, (backgroundFindings settings file).1,
        (scriptFindings settings file).2 ++ (encounterFindings settings file).2
          ++ (backgroundFindings settings file).2⟩ := by
  unfold verifyField encounterFindings
  cases settings.checkEncounters <;> rfl

theorem scriptFindings_spec :
    ((scriptFindings settings file).2 = []
        ↔ (settings.checkScripts = true → ScriptSection.IsSound file.scripts))
      ∧ (scriptFindings settings file).2.length
        = (scriptFindings settings file).2.countP Problem.isScript
          + (settings.checkScripts && !(ScriptSection.parse file.scripts).isOk).toNat
      ∧ (scriptFindings settings file).2.countP Problem.isScript
        ≤ (scriptFindings settings file).1 := by
  unfold scriptFindings
  cases settings.checkScripts with
  | false => simp
  | true =>
    simp only [if_true, true_implies, Bool.true_and]
    exact ⟨checkScripts_eq_nil, length_checkScripts _, countP_checkScripts_le _⟩

theorem encounterFindings_spec :
    ((encounterFindings settings file).2 = []
        ↔ (settings.checkEncounters = true → file.encounter.size = 48))
      ∧ (encounterFindings settings file).2.length
        = (settings.checkEncounters && file.encounter.size != 48).toNat
      ∧ (encounterFindings settings file).1
        = if settings.checkEncounters = true then some (file.encounter.size == 48) else none := by
  unfold encounterFindings
  rw [checkEncounters_eq]
  have hlength : EncounterSection.length = 48 := rfl
  rw [hlength]
  cases settings.checkEncounters with
  | false => simp
  | true =>
    by_cases hsize : file.encounter.size = 48
    · simp [hsize]
    · have hdiffers : (file.encounter.size != 48) = true := bne_iff_ne.mpr hsize
      simp [hsize, hdiffers]

theorem backgroundFindings_spec :
    ((backgroundFindings settings file).2 = []
        ↔ (settings.checkBackgrounds = true →
          ∃ background, ((BackgroundStore.ofBytes file.background).decode file.palette).1
            = .ok background))
      ∧ (backgroundFindings settings file).2.length
        = (settings.checkBackgrounds
            && !((BackgroundStore.ofBytes file.background).decode file.palette).1.isOk).toNat := by
  unfold backgroundFindings
  cases settings.checkBackgrounds with
  | false => simp
  | true =>
    simp only [if_true, true_implies, Bool.true_and, ← Except.isOk_iff]
    rw [← List.length_eq_zero_iff, length_checkBackground]
    exact ⟨by cases Except.isOk _ <;> simp, rfl⟩

end

/-- **The verdict on a field is exact.** No problem is reported if every check that is
asked for holds. There is one problem for each script that failed, and one for each
section that could not be read; the encounter section is reported as damaged only along
with a problem. -/
theorem verifyField_verdict (settings : Settings) (name : String) (file : FieldFile) :
    ((verifyField settings name file).isOk = true
        ↔ (settings.checkScripts = true → ScriptSection.IsSound file.scripts)
          ∧ (settings.checkEncounters = true → file.encounter.size = 48)
          ∧ (settings.checkBackgrounds = true →
            ∃ background, ((BackgroundStore.ofBytes file.background).decode file.palette).1
              = .ok background))
      ∧ (verifyField settings name file).problems.length
        = (verifyField settings name file).scriptsFailed
          + (settings.checkScripts && !(ScriptSection.parse file.scripts).isOk).toNat
          + (settings.checkEncounters && file.encounter.size != 48).toNat
          + (settings.checkBackgrounds
              && !((BackgroundStore.ofBytes file.background).decode file.palette).1.isOk).toNat
      ∧ (verifyField settings name file).scriptsFailed
        ≤ (verifyField settings name file).scriptsChecked
      ∧ (verifyField settings name file).encounterOk
        = (if settings.checkEncounters = true then some (file.encounter.size == 48) else none)
      ∧ ((verifyField settings name file).isOk = true →
        (verifyField settings name file).encounterOk ≠ some false) := by
  obtain ⟨hscripts, hscriptCount, hle⟩ := scriptFindings_spec settings file
  obtain ⟨hencounters, hencounterCount, hencounterOk⟩ := encounterFindings_spec settings file
  obtain ⟨hbackground, hbackgroundCount⟩ := backgroundFindings_spec settings file
  have hverdict : (verifyField settings name file).isOk = true
      ↔ (scriptFindings settings file).2 = [] ∧ (encounterFindings settings file).2 = []
        ∧ (backgroundFindings settings file).2 = [] := by
    rw [verifyField_eq, FieldReport.isOk, List.isEmpty_iff, List.append_eq_nil_iff,
      List.append_eq_nil_iff, and_assoc]
  refine ⟨?verdict, ?count, ?failed, ?encounter, fun hok => ?damaged⟩
  case verdict => rw [hverdict, hscripts, hencounters, hbackground]
  case count =>
    rw [verifyField_eq, List.length_append, List.length_append, hscriptCount, hencounterCount,
      hbackgroundCount]
  case failed =>
    rw [verifyField_eq]
    exact hle
  case encounter =>
    rw [verifyField_eq]
    exact hencounterOk
  case damaged =>
    have hsize := hencounters.mp (hverdict.mp hok).2.1
    rw [verifyField_eq]
    dsimp only
    rw [hencounterOk]
    split_ifs with hcheck
    · simp [hsize hcheck]
    · exact nofun

end Verification

end FieldMap
