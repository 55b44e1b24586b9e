import FlatCrate.CommandLine.Run
import FlatCrate.Proofs.CommandLine.Arguments

/-!
# The settings of a command line

The settings come from a file, if the command line names one, and the options of the command line
change them. Both can fail. The failure is reported unless the file cannot be asked for, its document
cannot be made, one of its keys is no string, or the message would have to show a value that cannot
be shown. Of the options only the mark can break the run off, where it stands for a path.

Documents that escape one half of a surrogate pair alone are left out.
-/

namespace FlatCrate

open Settings (UpdateFails asPath asSysroot bind_eq_error exists_of_bind_eq_ok fieldOr isGiven)

namespace CommandLine

variable {arguments : Arguments} {tree : FileTree} {format : Format} {text : String}
  {document : Value} {breakdown : Breakdown}

/-! ## Settings files -/

/-- The settings of the file that a command line names, or the standard. -/
def Arguments.loaded (arguments : Arguments) (tree : FileTree) : Except LoadFault Settings :=
  match nonempty? arguments.config with
  | none => .ok {}
  | some file => Settings.load tree (.ofString file)

/-- The settings file that a command line names holds a text in a format. -/
def Arguments.Reads (arguments : Arguments) (tree : FileTree) (format : Format) (text : String) :
    Prop :=
  ∃ file, nonempty? arguments.config = some file ∧
    Settings.readText tree (.ofString file) = .ok text ∧
    Format.ofSuffix? (Text.lower (Path.ofString file).suffix) = some format

/-- The settings file that a command line names has no half of a surrogate pair alone. Such a half may
do no harm, or break the run off where it gets into a path. Which of these comes is left open, since no
text here can hold it. -/
def Arguments.IsPaired (arguments : Arguments) (tree : FileTree) : Prop :=
  ∀ format text, arguments.Reads tree format text → format.read text ≠ .error .unpaired

/-- How reading a settings file breaks off. -/
inductive LoadBreaksOff (arguments : Arguments) (tree : FileTree) : Breakdown → Prop
  /-- The path of the file has a zero in it. -/
  | path {file : String} : nonempty? arguments.config = some file →
      (Path.ofString file).holdsZero = true → LoadBreaksOff arguments tree .impossibleValue
  /-- The document has a value that cannot be made. -/
  | document {format : Format} {text : String} {breakdown : Breakdown} :
      arguments.Reads tree format text → format.read text = .error (.broken breakdown) →
      LoadBreaksOff arguments tree breakdown
  /-- A key of the mapping is no string. -/
  | key {format : Format} {text : String} {document : Value} {members : List (Value × Value)}
      {member : Value × Value} : arguments.Reads tree format text →
      format.read text = .ok document → document.members? = some members → member ∈ members →
      (∀ name, member.1 ≠ .string name) → LoadBreaksOff arguments tree .wrongKind
  /-- The message about a field would have to show a value that cannot be shown. -/
  | value {format : Format} {text beginning : String} {document value : Value}
      {members : List (Value × Value)} {fault : SettingsFault} : arguments.Reads tree format text →
      format.read text = .ok document → document.members? = some members →
      Settings.ofMapping members = .error fault →
      fault.shownValue? = some (beginning, value) → value.literal? = none →
      LoadBreaksOff arguments tree .impossibleValue

/-- A document that is a mapping gives the settings of that mapping. -/
theorem ofDocument_of_members? {members : List (Value × Value)} (path : Path)
    (h : document.members? = some members) :
    Settings.ofDocument path document = (Settings.ofMapping members).mapError .settings := by
  cases document <;> simp_all [Settings.ofDocument, Value.members?]

/-- A document breaks off by the mapping that it is. -/
theorem exists_of_ofDocument {path : Path} {fault : LoadFault}
    (h : Settings.ofDocument path document = .error fault)
    (hbreak : fault.breakdown? = some breakdown) : ∃ members cause,
      document.members? = some members ∧ Settings.ofMapping members = .error cause ∧
        cause.readingBreakdown? = some breakdown := by
  unfold Settings.ofDocument at h
  split at h
  · obtain ⟨settings, hempty⟩ : ∃ settings, Settings.ofMapping [] = .ok settings := ⟨_, rfl⟩
    simp [hempty, Except.mapError] at h
  · next members _ hmembers =>
    cases hcause : Settings.ofMapping members with
    | ok settings => simp [hcause, Except.mapError] at h
    | error cause =>
      simp only [hcause, Except.mapError, Except.error.injEq] at h
      subst h
      exact ⟨members, cause, hmembers, hcause, hbreak⟩
  · simp [← Except.error.inj h, LoadFault.breakdown?] at hbreak

/-- What comes of a settings file that can be read depends on its text only. -/
theorem Arguments.Reads.loaded_eq (h : arguments.Reads tree format text) :
    ∃ path, arguments.loaded tree = match format.read text with
      | .error .malformed => .error (.unparsable path)
      | .error (.broken breakdown) => .error (.broken breakdown)
      | .error .unpaired => .error (.broken .impossibleValue)
      | .ok document => Settings.ofDocument path document := by
  obtain ⟨file, hfile, htext, hformat⟩ := h
  refine ⟨.ofString file, ?_⟩
  have hload : arguments.loaded tree = Settings.load tree (.ofString file) := by
    rw [Arguments.loaded, hfile]
  rw [hload, Settings.load, htext]
  cases hread : format.read text with
  | error fault => cases fault <;> simp [hformat, hread, bind, Except.bind]
  | ok document => simp [hformat, hread, bind, Except.bind]

/-- A fault that breaks off is one of the path or of the document. -/
theorem Arguments.Reads.of_breakdown {fault : LoadFault} (h : arguments.loaded tree = .error fault)
    (hbreak : fault.breakdown? = some breakdown) :
    (∃ file, nonempty? arguments.config = some file ∧ (Path.ofString file).holdsZero = true ∧
      breakdown = .impossibleValue) ∨ ∃ format text, arguments.Reads tree format text := by
  rw [Arguments.loaded] at h
  split at h
  · simp at h
  · next file hfile =>
    obtain hread | ⟨text, htext, h⟩ := bind_eq_error h
    · unfold Settings.readText at hread
      split at hread
      · next hzero =>
        simp only [← Except.error.inj hread, LoadFault.breakdown?, Option.some.injEq] at hbreak
        exact .inl ⟨file, hfile, hzero, hbreak.symm⟩
      · split at hread
        · simp [← Except.error.inj hread, LoadFault.breakdown?] at hbreak
        · split at hread
          · simp [← Except.error.inj hread, LoadFault.breakdown?] at hbreak
          · simp at hread
    · dsimp only at h
      split at h
      · simp [← Except.error.inj h, LoadFault.breakdown?] at hbreak
      · next format hformat => exact .inr ⟨format, text, file, hfile, htext, hformat⟩

/-- A settings file that gives settings has no half of a surrogate pair alone. -/
theorem Arguments.IsPaired.of_loaded {base : Settings} (h : arguments.loaded tree = .ok base) :
    arguments.IsPaired tree := by
  intro format text hreads hread
  obtain ⟨path, hloaded⟩ := hreads.loaded_eq
  simp [h, hread] at hloaded

/-- Reading a settings file breaks off in these cases only. -/
theorem loaded_breaksOff_iff (hpaired : arguments.IsPaired tree) :
    (∃ fault, arguments.loaded tree = .error fault ∧ fault.breakdown? = some breakdown) ↔
      LoadBreaksOff arguments tree breakdown := by
  constructor
  · rintro ⟨fault, hfault, hbreak⟩
    obtain ⟨file, hfile, hzero, rfl⟩ | ⟨format, text, hreads⟩ :=
      Arguments.Reads.of_breakdown hfault hbreak
    · exact .path hfile hzero
    obtain ⟨path, hloaded⟩ := hreads.loaded_eq
    rw [hfault] at hloaded
    split at hloaded
    · simp [Except.error.inj hloaded, LoadFault.breakdown?] at hbreak
    · next cause hread =>
      rw [Except.error.inj hloaded, LoadFault.breakdown?, Option.some.injEq] at hbreak
      exact hbreak ▸ .document hreads hread
    · next hread => exact absurd hread (hpaired format text hreads)
    · next document hread =>
      obtain ⟨members, cause, hmembers, hcause, hsame⟩ :=
        exists_of_ofDocument hloaded.symm hbreak
      obtain ⟨rfl, member, hmember, hkey⟩ | ⟨rfl, beginning, value, hshown, hnone⟩ :=
        Settings.readingBreakdown?_of_ofMapping hcause hsame
      · exact .key hreads hread hmembers hmember hkey
      · exact .value hreads hread hmembers hcause hshown hnone
  · intro h
    cases h with
    | path hfile hzero =>
      refine ⟨.broken .impossibleValue, ?_, rfl⟩
      simp [Arguments.loaded, hfile, Settings.load, Settings.readText, hzero, bind, Except.bind]
    | document hreads hread =>
      obtain ⟨path, hloaded⟩ := hreads.loaded_eq
      rw [hread] at hloaded
      exact ⟨_, hloaded, rfl⟩
    | key hreads hread hmembers hmember hkey =>
      obtain ⟨path, hloaded⟩ := hreads.loaded_eq
      have hkeys := Settings.unknownKeys?_eq_none_iff.mpr ⟨_, hmember, hkey⟩
      simp only [hread, ofDocument_of_members? path hmembers, Settings.ofMapping, hkeys] at hloaded
      exact ⟨_, hloaded, rfl⟩
    | value hreads hread hmembers hfault hshown hnone =>
      obtain ⟨path, hloaded⟩ := hreads.loaded_eq
      simp only [hread, ofDocument_of_members? path hmembers, hfault] at hloaded
      exact ⟨_, hloaded,
        Settings.readingBreakdown?_eq_some_iff.mpr (.inr ⟨rfl, _, _, hshown, hnone⟩)⟩

/-! ## Options -/

/-- Among fields with different names, those that are given are looked up as before. -/
theorem lookup_filter_isGiven {changes : List (String × Value)}
    (hnodup : (changes.map (·.1)).Nodup) (name : String) :
    (changes.filter fun change => isGiven change.2).lookup name =
      (changes.lookup name).filter isGiven := by
  induction changes with
  | nil => rfl
  | cons change changes ih =>
    obtain ⟨field, value⟩ := change
    rw [List.map_cons, List.nodup_cons] at hnodup
    have hlater := ih hnodup.2
    by_cases hname : name = field
    · subst hname
      have hnone : changes.lookup name = none := by
        rw [List.lookup_eq_none_iff]
        intro change hchange
        exact bne_iff_ne.mpr fun heq =>
          hnodup.1 (List.mem_map.mpr ⟨change, hchange, heq.symm⟩)
      rw [List.lookup_cons_self, Option.filter_some, List.filter_cons]
      split_ifs
      · rw [List.lookup_cons_self]
      · rw [hlater, hnone, Option.filter_none]
    · have hother : (name == field) = false := beq_false_of_ne hname
      rw [List.lookup_cons, hother, ← hlater, List.filter_cons]
      split_ifs
      · rw [List.lookup_cons, hother]
      · rfl

/-- The fields that the options of a command line give. -/
def Arguments.given (arguments : Arguments) : List (String × Value) :=
  arguments.changes.filter fun change => isGiven change.2

/-- The options never name a field that settings do not have. -/
theorem Arguments.override_eq (arguments : Arguments) (base : Settings) :
    base.override arguments.changes = base.update arguments.given := by
  have hstray : arguments.changes.find? Settings.isStray = none := by
    simp [Arguments.changes, Settings.isStray, Settings.fieldNames, Settings.ownName]
  rw [Settings.override, hstray]
  rfl

/-- A field is given with its value unless that is null. -/
theorem Arguments.lookup_given (arguments : Arguments) (name : String) :
    arguments.given.lookup name = (arguments.changes.lookup name).filter isGiven :=
  lookup_filter_isGiven (by simp [Arguments.changes]) name

/-- The mark stands for a path. -/
def Arguments.HasMarkForPath (arguments : Arguments) : Prop :=
  arguments.sysroot = some .nothing ∨ arguments.outputDir = some .nothing

/-- A field that is given and not right. -/
theorem Arguments.error_of_fieldOr {α : Type} {read : Value → Except SettingsFault α} {old : α}
    {field : String} {value : Value} {fault : SettingsFault}
    (h : fieldOr arguments.given field read old = .error fault)
    (hvalue : arguments.changes.lookup field = some value) :
    isGiven value = true ∧ read value = .error fault := by
  obtain ⟨found, hfound, hread⟩ := Settings.fieldOr_eq_error h
  rw [arguments.lookup_given, hvalue, Option.filter_some] at hfound
  split_ifs at hfound with hgiven
  exact ⟨hgiven, Option.some.inj hfound ▸ hread⟩

/-- Every text is a path. -/
theorem exists_asPath (text : String) : ∃ path, asPath (.string text) = .ok path := ⟨_, rfl⟩

/-- Every text is the place of a toolchain. -/
theorem exists_asSysroot (text : String) : ∃ sysroot, asSysroot (.string text) = .ok sysroot :=
  ⟨_, rfl⟩

/-- If every text can be read, nothing but the mark is refused. -/
theorem eq_nothing_of_asValue {α : Type} {read : Value → Except SettingsFault α}
    (hread : ∀ text, ∃ a, read (.string text) = .ok a) {given : Option (Given String)}
    {fault : SettingsFault} (hgiven : isGiven (Given.asValue .string given) = true)
    (h : read (Given.asValue .string given) = .error fault) : given = some .nothing := by
  cases given with
  | none => simp [Given.asValue, isGiven] at hgiven
  | some given =>
    cases given with
    | value text =>
      obtain ⟨a, ha⟩ := hread text
      simp [Given.asValue, ha] at h
    | nothing => rfl

/-- The value of a list of components, if there is one. -/
theorem Arguments.lookup_components (arguments : Arguments) :
    arguments.given.lookup "components" =
      arguments.components.map fun names => Value.list (names.map .string) := by
  rw [arguments.lookup_given]
  cases h : arguments.components <;>
    simp [Arguments.changes, List.lookup_cons, h, isGiven, Option.filter]

/-- The components that are given are texts, and so are those of the settings. -/
theorem Arguments.exists_items (arguments : Arguments) (base : Settings) :
    ∃ names : List String,
      fieldOr arguments.given "components" Settings.asItems (base.components.map .string) =
        .ok (names.map .string) := by
  rw [fieldOr, arguments.lookup_components]
  cases arguments.components with
  | none => exact ⟨base.components, rfl⟩
  | some names => exact ⟨names, rfl⟩

/-- A message that breaks off would have to show a value that cannot be shown. -/
theorem literal?_eq_none_of_overrideBreakdown? {fault : SettingsFault} {beginning : String}
    {value : Value} (hshown : fault.shownValue? = some (beginning, value))
    (h : fault.overrideBreakdown? = some breakdown) : value.literal? = none := by
  cases fault <;>
    simp_all [SettingsFault.shownValue?, SettingsFault.overrideBreakdown?,
      SettingsFault.readingBreakdown?]

/-- What the options give as a budget can be shown. -/
theorem Arguments.HasShowableBudget.exists_literal (h : arguments.HasShowableBudget) :
    ∃ literal, (Given.asValue .integer arguments.budget).literal? = some literal := by
  cases hbudget : arguments.budget with
  | none => exact ⟨"None", by simp [Given.asValue, Value.literal?]⟩
  | some given =>
    cases given with
    | nothing =>
      exact ⟨Value.enclosed "[" "]" [], by simp [Given.asValue, Value.literal?, Value.literals?]⟩
    | value n =>
      refine ⟨toString n, ?_⟩
      rw [Given.asValue, Value.literal?, Value.integerLiteral?, if_pos (h n hbudget)]

/-- A mark in the place of a path breaks off, since the paths are the first fields. -/
theorem Arguments.HasMarkForPath.update_eq (h : arguments.HasMarkForPath) (base : Settings) :
    ∃ value, base.update arguments.given = .error (.notAPath value) := by
  have hoption {field : String} {given : Option (Given String)} {α : Type} {old : α}
      {read : Value → Except SettingsFault α}
      (hfield : arguments.changes.lookup field = some (Given.asValue .string given))
      (hnothing : given = some .nothing)
      (hread : read (.list []) = .error (.notAPath (.list []))) :
      fieldOr arguments.given field read old = .error (.notAPath (.list [])) := by
    subst hnothing
    rw [fieldOr, arguments.lookup_given, hfield]
    exact hread
  cases hsysroot : fieldOr arguments.given "sysroot" asSysroot base.sysroot with
  | error fault =>
    obtain ⟨-, hread⟩ := Arguments.error_of_fieldOr hsysroot rfl
    obtain rfl := Settings.asSysroot_eq_error hread
    refine ⟨Given.asValue .string arguments.sysroot, ?_⟩
    rw [Settings.update, hsysroot]
    rfl
  | ok sysroot =>
    obtain h | h := h
    · rw [hoption rfl h rfl] at hsysroot
      simp at hsysroot
    · refine ⟨.list [], ?_⟩
      rw [Settings.update, hsysroot, hoption rfl h rfl]
      rfl

/-- The options break the run off exactly if the mark stands for a path. -/
theorem override_breaksOff_iff (hbudget : arguments.HasShowableBudget) (base : Settings) :
    (∃ fault, base.override arguments.changes = .error fault ∧
      fault.overrideBreakdown? = some breakdown) ↔
    breakdown = .wrongKind ∧ arguments.HasMarkForPath := by
  rw [arguments.override_eq]
  constructor
  · rintro ⟨fault, hfault, hbreak⟩
    cases Settings.updateFails_of_update hfault with
    | sysroot h =>
      obtain ⟨hgiven, h⟩ := Arguments.error_of_fieldOr h rfl
      obtain rfl := Settings.asSysroot_eq_error h
      exact ⟨(Option.some.inj hbreak).symm,
        .inl (eq_nothing_of_asValue exists_asSysroot hgiven h)⟩
    | outputDir h =>
      obtain ⟨hgiven, h⟩ := Arguments.error_of_fieldOr h rfl
      obtain rfl := Settings.asPath_eq_error h
      exact ⟨(Option.some.inj hbreak).symm,
        .inr (eq_nothing_of_asValue exists_asPath hgiven h)⟩
    | items h =>
      obtain ⟨names, hnames⟩ := arguments.exists_items base
      simp [hnames] at h
    | names hitems h =>
      obtain ⟨names, hnames⟩ := arguments.exists_items base
      obtain rfl := Except.ok.inj (hnames.symm.trans hitems)
      obtain rfl | ⟨value, hvalue, rfl⟩ := Settings.asNames_eq_error h
      · simp [SettingsFault.overrideBreakdown?, SettingsFault.readingBreakdown?,
          SettingsFault.shownValue?] at hbreak
      · obtain ⟨name, -, rfl⟩ := List.mem_map.mp hvalue
        have hnone := literal?_eq_none_of_overrideBreakdown? rfl hbreak
        simp [Value.literal?] at hnone
    | stubbing h =>
      obtain ⟨hgiven, h⟩ := Arguments.error_of_fieldOr h rfl
      split_ifs at hgiven h
      · simp [Settings.asStubbing] at h
      · simp [isGiven] at hgiven
    | budget h =>
      obtain ⟨-, h⟩ := Arguments.error_of_fieldOr h rfl
      obtain rfl := Settings.asBudget_eq_error h
      have hnone := literal?_eq_none_of_overrideBreakdown? rfl hbreak
      obtain ⟨literal, hliteral⟩ := hbudget.exists_literal
      simp [hliteral] at hnone
  · rintro ⟨rfl, hmark⟩
    obtain ⟨value, hvalue⟩ := hmark.update_eq base
    exact ⟨_, hvalue, rfl⟩

/-! ## Both -/

/-- The breakdown that a failure is, if it is one. -/
def SetupFault.breakdown? : SetupFault → Option Breakdown
  | load fault => fault.breakdown?
  | override fault => fault.overrideBreakdown?

/-- How getting the settings of a command line breaks off. -/
inductive SetupBreaksOff (arguments : Arguments) (tree : FileTree) : Breakdown → Prop
  | load {breakdown : Breakdown} : LoadBreaksOff arguments tree breakdown →
      SetupBreaksOff arguments tree breakdown
  /-- The settings file has been read, and the mark stands for a path. -/
  | mark {base : Settings} : arguments.loaded tree = .ok base → arguments.HasMarkForPath →
      SetupBreaksOff arguments tree .wrongKind

/-- The settings of a command line are those of its file, changed by its options. -/
theorem Arguments.settings_eq (arguments : Arguments) (tree : FileTree) :
    arguments.settings tree = match arguments.loaded tree with
      | .error fault => .error (.load fault)
      | .ok base => match base.override arguments.changes with
        | .error fault => .error (.override fault)
        | .ok settings =>
          .ok (if arguments.noManifest then { settings with manifest := .null } else settings) := by
  rw [Arguments.settings, Arguments.loaded]
  cases nonempty? arguments.config with
  | none =>
    simp only [bind, Except.bind]
    cases Settings.override {} arguments.changes <;> rfl
  | some file =>
    simp only [bind, Except.bind]
    cases Settings.load tree (.ofString file) with
    | error fault => rfl
    | ok base =>
      simp only [Except.mapError]
      cases base.override arguments.changes <;> rfl

/-- Settings that are there have been read from a file without such a half, if from any. -/
theorem Arguments.IsPaired.of_settings {settings : Settings}
    (h : arguments.settings tree = .ok settings) : arguments.IsPaired tree := by
  rw [arguments.settings_eq] at h
  cases hloaded : arguments.loaded tree with
  | error fault => simp [hloaded] at h
  | ok base => exact .of_loaded hloaded

/-- The settings break a run off in these cases only. -/
theorem settings_breaksOff_iff (hbudget : arguments.HasShowableBudget)
    (hpaired : arguments.IsPaired tree) :
    (∃ fault, arguments.settings tree = .error fault ∧ fault.breakdown? = some breakdown) ↔
      SetupBreaksOff arguments tree breakdown := by
  rw [arguments.settings_eq]
  constructor
  · rintro ⟨fault, hfault, hbreak⟩
    cases hloaded : arguments.loaded tree with
    | error cause =>
      simp only [hloaded, Except.error.injEq] at hfault
      subst hfault
      exact .load ((loaded_breaksOff_iff hpaired).mp ⟨cause, hloaded, hbreak⟩)
    | ok base =>
      cases hoverride : base.override arguments.changes with
      | ok settings => simp [hloaded, hoverride] at hfault
      | error cause =>
        simp only [hloaded, hoverride, Except.error.injEq] at hfault
        subst hfault
        obtain ⟨rfl, hmark⟩ := (override_breaksOff_iff hbudget base).mp ⟨cause, hoverride, hbreak⟩
        exact .mark hloaded hmark
  · intro h
    cases h with
    | load h =>
      obtain ⟨cause, hloaded, hbreak⟩ := (loaded_breaksOff_iff hpaired).mpr h
      exact ⟨.load cause, by simp only [hloaded], hbreak⟩
    | @mark base hloaded hmark =>
      obtain ⟨cause, hoverride, hbreak⟩ :=
        (override_breaksOff_iff hbudget base).mpr ⟨rfl, hmark⟩
      exact ⟨.override cause, by simp only [hloaded, hoverride], hbreak⟩

end CommandLine

end FlatCrate
