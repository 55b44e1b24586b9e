import FlatCrate.Proofs.Settings.Accepted

/-!
# Overriding settings again

Settings that were made from a mapping may be overridden any number of times. Of the fields that stay
as they are, only the components are checked again; for the others their types say what the checks
would. Components that have passed the check once pass it always, and no field is checked in view of
another one. So two overrides in a row are a single
one, in which the second has the last word, and a whole sequence of them is a single one, too: calls
that fail leave no trace.
-/

namespace FlatCrate.Settings

variable {settings middle last start : Settings} {changes first second : List (String × Value)}
  {name : String}

/-! ## Mappings of names -/

/-- A mapping with the entries of another one: these take the places of the entries of their names,
and the others come behind. -/
def updatedBy (first second : List (String × Value)) : List (String × Value) :=
  first.map (fun entry => (entry.1, (second.lookup entry.1).getD entry.2)) ++
    second.filter fun entry => (first.lookup entry.1).isNone

/-- A name is looked up in the second mapping if the first one has it. -/
theorem lookup_map_getD (first second : List (String × Value)) (name : String) :
    (first.map fun entry => (entry.1, (second.lookup entry.1).getD entry.2)).lookup name =
      (first.lookup name).map fun value => (second.lookup name).getD value := by
  induction first with
  | nil => rfl
  | cons entry first ih =>
    rw [List.map_cons, List.lookup_cons, List.lookup_cons, ih]
    cases hname : name == entry.1 with
    | true => rw [← beq_iff_eq.mp hname]; rfl
    | false => rfl

/-- Leaving out entries by their names does not change the others. -/
theorem lookup_filter_name {p : String → Bool} (h : p name = true)
    (entries : List (String × Value)) :
    (entries.filter fun entry => p entry.1).lookup name = entries.lookup name := by
  induction entries with
  | nil => rfl
  | cons entry entries ih =>
    cases hname : name == entry.1 with
    | true =>
      have hkeep : p entry.1 = true := beq_iff_eq.mp hname ▸ h
      rw [List.filter_cons, if_pos hkeep, List.lookup_cons, List.lookup_cons, hname]
    | false =>
      rw [List.lookup_cons, hname, List.filter_cons]
      split_ifs
      · rw [List.lookup_cons, hname, ih]
      · exact ih

/-- The second mapping has the last word. -/
theorem lookup_updatedBy (first second : List (String × Value)) (name : String) :
    (updatedBy first second).lookup name = (second.lookup name).or (first.lookup name) := by
  rw [updatedBy, List.lookup_append, lookup_map_getD]
  cases hfirst : first.lookup name with
  | none =>
    rw [lookup_filter_name (p := fun name => (first.lookup name).isNone) (by rw [hfirst]; rfl)]
    simp
  | some value => cases second.lookup name <;> rfl

/-- Every entry has its name and its value from one of the two mappings. -/
theorem mem_updatedBy {entry : String × Value} (h : entry ∈ updatedBy first second) :
    entry ∈ first ∨ entry ∈ second := by
  rw [updatedBy, List.mem_append, List.mem_map, List.mem_filter] at h
  obtain ⟨entry, hentry, rfl⟩ | ⟨hentry, -⟩ := h
  · cases hsecond : second.lookup entry.1 with
    | none => exact .inl hentry
    | some value =>
      obtain ⟨front, behind, rfl, -⟩ := List.lookup_eq_some_iff.mp hsecond
      exact .inr (by simp)
  · exact .inr hentry

/-! ## One override -/

/-- The changes that have a value. -/
def withoutNulls (changes : List (String × Value)) : List (String × Value) :=
  changes.filter fun change => isGiven change.2

/-- Two mappings of changes as one: the second one has the last word, but nulls say nothing. -/
def merged (first second : List (String × Value)) : List (String × Value) :=
  updatedBy (withoutNulls first) (withoutNulls second)

/-- Beyond what the types of the fields say, there are components and none of them is empty. -/
def IsValid (settings : Settings) : Prop := settings.components ≠ [] ∧ "" ∉ settings.components

/-- Settings that have been updated are valid. -/
theorem isValid_of_update (h : settings.update changes = .ok last) : last.IsValid := by
  obtain ⟨-, -, hcomponents, -⟩ := update_eq_ok_iff.mp h
  obtain ⟨items, -, hnames⟩ := bind_eq_ok_iff.mp hcomponents
  obtain ⟨hne, hempty, -⟩ := asNames_eq_ok_iff.mp hnames
  exact ⟨hne, hempty⟩

/-- Settings of a mapping are valid. -/
theorem isValid_of_ofMapping {members : List (Value × Value)}
    (h : ofMapping members = .ok settings) : settings.IsValid := by
  rw [ofMapping] at h
  split at h
  · simp at h
  · exact isValid_of_update h
  · simp at h

/-- Valid settings pass all checks again. -/
theorem update_nil (h : settings.IsValid) : settings.update [] = .ok settings := by
  refine update_eq_ok_iff.mpr ⟨rfl, rfl, ?_, rfl, rfl, rfl, rfl⟩
  rw [fieldOr_bind_asNames _ _ h.1 h.2]
  rfl

/-- An override succeeds exactly if it names fields only and the update without nulls does. -/
theorem override_eq_ok_iff : settings.override changes = .ok last ↔
    (∀ change ∈ changes, isStray change = false) ∧
      settings.update (withoutNulls changes) = .ok last := by
  rw [override]
  cases hstray : changes.find? isStray with
  | none =>
    rw [List.find?_eq_none] at hstray
    simp only [Bool.not_eq_true] at hstray
    exact ⟨fun h => ⟨hstray, h⟩, fun h => h.2⟩
  | some change =>
    have hmem := List.mem_of_find?_eq_some hstray
    have htrue : isStray change = true := List.find?_some hstray
    refine iff_of_false (by simp) fun h => ?_
    rw [h.1 change hmem] at htrue
    exact Bool.false_ne_true htrue

/-- Settings that have been overridden are valid. -/
theorem isValid_of_override (h : settings.override changes = .ok last) : last.IsValid :=
  isValid_of_update (override_eq_ok_iff.mp h).2

/-- Changes of fields to null leave valid settings as they are. -/
theorem override_nulls (h : settings.IsValid)
    (hnulls : ∀ change ∈ changes, change.1 ∈ fieldNames ∧ isGiven change.2 = false) :
    settings.override changes = .ok settings := by
  have hown : ownName ∉ fieldNames := by decide
  have hempty : settings.override [] = .ok settings :=
    override_eq_ok_iff.mpr ⟨by simp, update_nil h⟩
  rw [override_of_nulls settings fun change hchange =>
    ⟨(hnulls change hchange).2, fun heq => hown (heq ▸ (hnulls change hchange).1)⟩, hempty]

/-! ## Overrides in a row -/

/-- What a field becomes by two mappings, it becomes by the two taken together. -/
theorem fieldOr_updatedBy {α : Type} {field : String} {read : Value → Except SettingsFault α}
    {old new newest : α} (hfirst : fieldOr first field read old = .ok new)
    (hsecond : fieldOr second field read new = .ok newest) :
    fieldOr (updatedBy first second) field read old = .ok newest := by
  rw [fieldOr] at hfirst hsecond ⊢
  rw [lookup_updatedBy]
  cases hlookup : second.lookup field with
  | none =>
    rw [hlookup] at hsecond
    rw [Option.none_or, ← Except.ok.inj hsecond]
    exact hfirst
  | some value =>
    rw [hlookup] at hsecond
    exact hsecond

/-- Two updates in a row are one, in which the second has the last word. -/
theorem update_updatedBy (h : settings.IsValid) (hfirst : settings.update first = .ok middle)
    (hsecond : middle.update second = .ok last) :
    settings.update (updatedBy first second) = .ok last := by
  have hmiddle := isValid_of_update hfirst
  rw [update_eq_ok_iff, fieldOr_bind_asNames _ _ h.1 h.2] at hfirst
  rw [update_eq_ok_iff, fieldOr_bind_asNames _ _ hmiddle.1 hmiddle.2] at hsecond
  rw [update_eq_ok_iff, fieldOr_bind_asNames _ _ h.1 h.2]
  obtain ⟨hsysroot, houtputDir, hcomponents, hstubbing, hbudget, hcompiler, hmanifest⟩ := hfirst
  obtain ⟨hsysroot', houtputDir', hcomponents', hstubbing', hbudget', hcompiler', hmanifest'⟩ :=
    hsecond
  exact ⟨fieldOr_updatedBy hsysroot hsysroot', fieldOr_updatedBy houtputDir houtputDir',
    fieldOr_updatedBy hcomponents hcomponents', fieldOr_updatedBy hstubbing hstubbing',
    fieldOr_updatedBy hbudget hbudget', fieldOr_updatedBy hcompiler hcompiler',
    fieldOr_updatedBy hmanifest hmanifest'⟩

/-- The changes of two mappings taken together have values, and come from one of them. -/
theorem of_mem_merged {change : String × Value} (h : change ∈ merged first second) :
    isGiven change.2 = true ∧ (change ∈ first ∨ change ∈ second) := by
  obtain h | h := mem_updatedBy h
  · exact ⟨(List.mem_filter.mp h).2, .inl (List.mem_filter.mp h).1⟩
  · exact ⟨(List.mem_filter.mp h).2, .inr (List.mem_filter.mp h).1⟩

/-- Two overrides in a row are one. -/
theorem override_merged (h : settings.IsValid) (hfirst : settings.override first = .ok middle)
    (hsecond : middle.override second = .ok last) :
    settings.override (merged first second) = .ok last := by
  rw [override_eq_ok_iff] at hfirst hsecond ⊢
  constructor
  · intro change hchange
    obtain hmem | hmem := (of_mem_merged hchange).2
    · exact hfirst.1 change hmem
    · exact hsecond.1 change hmem
  · have hvalues : withoutNulls (merged first second) = merged first second :=
      List.filter_eq_self.mpr fun change hchange => (of_mem_merged hchange).1
    rw [hvalues]
    exact update_updatedBy h hfirst.2 hsecond.2

/-- The settings behind a call that overrides some fields. A call that fails leaves them as they
are. -/
def overridden (settings : Settings) (changes : List (String × Value)) : Settings :=
  match settings.override changes with
  | .ok later => later
  | .error _ => settings

/-- The changes of all calls that succeed, taken together. -/
def gathered : Settings → List (List (String × Value)) → List (String × Value)
  | _, [] => []
  | settings, changes :: calls =>
    match settings.override changes with
    | .ok later => merged changes (gathered later calls)
    | .error _ => gathered settings calls

/-- Valid settings stay valid, whatever they are overridden with. -/
theorem IsValid.overridden (h : settings.IsValid) (changes : List (String × Value)) :
    (settings.overridden changes).IsValid := by
  rw [Settings.overridden]
  cases hcall : settings.override changes with
  | ok later => exact isValid_of_override hcall
  | error fault => exact h

/-- Any number of overrides leaves valid settings valid. -/
theorem IsValid.foldl_overridden (h : settings.IsValid) (calls : List (List (String × Value))) :
    (calls.foldl Settings.overridden settings).IsValid := by
  induction calls generalizing settings with
  | nil => exact h
  | cons changes calls ih => exact ih (h.overridden changes)

/-- All calls together are one override with the changes of those that succeed. -/
theorem override_gathered (h : settings.IsValid) (calls : List (List (String × Value))) :
    settings.override (gathered settings calls) = .ok (calls.foldl overridden settings) := by
  induction calls generalizing settings with
  | nil => exact override_nulls h (by simp [gathered])
  | cons changes calls ih =>
    rw [gathered, List.foldl_cons, overridden]
    cases hcall : settings.override changes with
    | ok later => exact override_merged h hcall (ih (isValid_of_override hcall))
    | error fault => exact ih h

/-- However often settings that a mapping gives have been overridden, they are valid; nulls leave
them as they are; two overrides that succeed in a row are one with the merged changes; and a call
that fails may be left out, so all calls together are one override with what the successful ones
have given. -/
theorem override_laws {members : List (Value × Value)} (hstart : ofMapping members = .ok start)
    (calls : List (List (String × Value))) :
    let settings := calls.foldl overridden start
    (settings.components ≠ [] ∧ "" ∉ settings.components) ∧
    (∀ changes, (∀ change ∈ changes, change.1 ∈ fieldNames ∧ isGiven change.2 = false) →
      settings.override changes = .ok settings) ∧
    (∀ first second middle last, settings.override first = .ok middle →
      middle.override second = .ok last → settings.override (merged first second) = .ok last) ∧
    (∀ changes fault later, settings.override changes = .error fault →
      (calls ++ changes :: later).foldl overridden start =
        (calls ++ later).foldl overridden start) ∧
    start.override (gathered start calls) = .ok settings := by
  intro settings
  have hvalid : start.IsValid := isValid_of_ofMapping hstart
  have hreached : settings.IsValid := hvalid.foldl_overridden calls
  refine ⟨hreached, fun changes => override_nulls hreached, fun first second middle last =>
    override_merged hreached, fun changes fault later hfault => ?_, override_gathered hvalid calls⟩
  have hsame : settings.overridden changes = settings := by rw [overridden, hfault]
  rw [List.foldl_append, List.foldl_append, List.foldl_cons]
  exact congrArg (later.foldl overridden) hsame

/-- Three calls, of which the second one fails because a truth value is no budget. -/
def threeCalls : List (List (String × Value)) :=
  [[("components", .list [.string "core", .string "alloc"]), ("sysroot", .null)],
    [("output_dir", .string "out"), ("budget", .bool true)],
    [("sysroot", .string "sys"), ("budget", .integer 0)]]

/-- Settings that are overridden three times, once without success. -/
theorem override_laws_threeCalls :
    ofMapping [(.string "budget", .integer 3), (.string "components", .string "std")] =
      .ok { components := ["std"], budget := 3 } ∧
    threeCalls.foldl overridden { components := ["std"], budget := 3 } =
      { sysroot := some (.ofString "sys"), components := ["core", "alloc"], budget := 0 } ∧
    ({ components := ["std"], budget := 3 } : Settings).override
      [("components", .list [.string "core", .string "alloc"]), ("sysroot", .string "sys"),
        ("budget", .integer 0)] =
      .ok { sysroot := some (.ofString "sys"), components := ["core", "alloc"], budget := 0 } := by
  have hstart : ofMapping [(.string "budget", .integer 3), (.string "components", .string "std")] =
      .ok { components := ["std"], budget := 3 } := rfl
  exact ⟨hstart, rfl, (override_laws hstart threeCalls).2.2.2.2⟩

end FlatCrate.Settings
