import FlatCrate.Proofs.Path
import FlatCrate.Settings.Basic

/-!
# What has been checked of settings

Settings that were made from a mapping have passed the checks of their fields. So they have at least
one component, and their output directory is a path of proper names. Nothing is checked of one
component in view of another one.

Settings that are not accepted fail at the first field that is not right. Reading them from a
mapping breaks off, and is not reported, for two reasons only: a key is no string, or the message
would have to show a value that cannot be shown.
-/

namespace FlatCrate

namespace Settings

variable {settings given : Settings} {names : List String}

/-- A chain of checks succeeds only if its first one does, and the rest with what that one gives. -/
theorem exists_of_bind_eq_ok {ε α β : Type} {first : Except ε α} {rest : α → Except ε β} {b : β}
    (h : first >>= rest = .ok b) : ∃ a, first = .ok a ∧ rest a = .ok b := by
  cases first with
  | error e => exact absurd h (by simp [bind, Except.bind])
  | ok a => exact ⟨a, rfl, h⟩

/-- A chain of checks fails if its first one does, or else the rest. -/
theorem bind_eq_error {ε α β : Type} {first : Except ε α} {rest : α → Except ε β} {e : ε}
    (h : first >>= rest = .error e) :
    first = .error e ∨ ∃ a, first = .ok a ∧ rest a = .error e := by
  cases first with
  | error fault => exact .inl (congrArg Except.error (Except.error.inj h))
  | ok a => exact .inr ⟨a, rfl, h⟩

/-- A list of components is not empty. -/
theorem ne_nil_of_asNames {items : List Value} (h : asNames items = .ok names) : names ≠ [] := by
  cases items with
  | nil => simp [asNames] at h
  | cons item items =>
    rw [asNames, List.isEmpty_cons, if_neg Bool.false_ne_true, List.mapM_cons] at h
    obtain ⟨name, -, h⟩ := exists_of_bind_eq_ok h
    obtain ⟨others, -, h⟩ := exists_of_bind_eq_ok h
    exact Except.ok.inj h ▸ List.cons_ne_nil name others

/-- A path that is given is normal, and so is one that stays as it was. -/
theorem isNormal_of_fieldOr {fields : List (String × Value)} {field : String} {old path : Path}
    (hold : old.IsNormal) (h : fieldOr fields field asPath old = .ok path) : path.IsNormal := by
  rw [fieldOr] at h
  split at h
  · exact Except.ok.inj h ▸ hold
  · next value _ =>
    cases value with
    | string text => exact Except.ok.inj h ▸ Path.isNormal_ofString text
    | _ => simp [asPath] at h

/-- Settings have components and a proper output directory, if the old ones had such a directory. -/
theorem update_eq_ok {fields : List (String × Value)} (hold : settings.outputDir.IsNormal)
    (h : settings.update fields = .ok given) :
    given.outputDir.IsNormal ∧ given.components ≠ [] := by
  rw [update] at h
  obtain ⟨_, -, h⟩ := exists_of_bind_eq_ok h
  obtain ⟨outputDir, houtputDir, h⟩ := exists_of_bind_eq_ok h
  obtain ⟨_, -, h⟩ := exists_of_bind_eq_ok h
  obtain ⟨components, hcomponents, h⟩ := exists_of_bind_eq_ok h
  obtain ⟨_, -, h⟩ := exists_of_bind_eq_ok h
  obtain ⟨_, -, h⟩ := exists_of_bind_eq_ok h
  obtain ⟨_, -, h⟩ := exists_of_bind_eq_ok h
  obtain ⟨_, -, h⟩ := exists_of_bind_eq_ok h
  obtain rfl := Except.ok.inj h
  exact ⟨isNormal_of_fieldOr hold houtputDir, ne_nil_of_asNames hcomponents⟩

/-- Settings of a mapping have a normal output directory and some components. -/
theorem ofMapping_eq_ok {members : List (Value × Value)} (h : ofMapping members = .ok given) :
    given.outputDir.IsNormal ∧ given.components ≠ [] := by
  rw [ofMapping] at h
  split at h
  · simp at h
  · exact update_eq_ok (Path.isNormal_ofString "www") h
  · simp at h

/-! ## Settings that are not accepted -/

variable {fields : List (String × Value)} {fault : SettingsFault} {breakdown : Breakdown}

/-- The field at which new settings fail. -/
inductive UpdateFails (settings : Settings) (fields : List (String × Value)) : SettingsFault → Prop
  | sysroot {fault : SettingsFault} :
      fieldOr fields "sysroot" asSysroot settings.sysroot = .error fault →
      UpdateFails settings fields fault
  | outputDir {fault : SettingsFault} :
      fieldOr fields "output_dir" asPath settings.outputDir = .error fault →
      UpdateFails settings fields fault
  | items {fault : SettingsFault} :
      fieldOr fields "components" asItems (settings.components.map .string) = .error fault →
      UpdateFails settings fields fault
  | names {fault : SettingsFault} {items : List Value} :
      fieldOr fields "components" asItems (settings.components.map .string) = .ok items →
      asNames items = .error fault → UpdateFails settings fields fault
  | stubbing {fault : SettingsFault} :
      fieldOr fields "strip_bodies" asStubbing settings.stubbing = .error fault →
      UpdateFails settings fields fault
  | budget {fault : SettingsFault} :
      fieldOr fields "budget" asBudget settings.budget = .error fault →
      UpdateFails settings fields fault

/-- A field that is not right is given, and its value is refused. -/
theorem fieldOr_eq_error {α : Type} {field : String} {read : Value → Except SettingsFault α}
    {old : α} (h : fieldOr fields field read old = .error fault) :
    ∃ value, fields.lookup field = some value ∧ read value = .error fault := by
  rw [fieldOr] at h
  split at h
  · simp at h
  · next value hvalue => exact ⟨value, hvalue, h⟩

/-- An update fails by the first of its fields that is not right. -/
theorem updateFails_of_update (h : settings.update fields = .error fault) :
    UpdateFails settings fields fault := by
  rw [update] at h
  obtain h | ⟨_, -, h⟩ := bind_eq_error h
  · exact .sysroot h
  obtain h | ⟨_, -, h⟩ := bind_eq_error h
  · exact .outputDir h
  obtain h | ⟨items, hitems, h⟩ := bind_eq_error h
  · exact .items h
  obtain h | ⟨_, -, h⟩ := bind_eq_error h
  · exact .names hitems h
  obtain h | ⟨_, -, h⟩ := bind_eq_error h
  · exact .stubbing h
  obtain h | ⟨_, -, h⟩ := bind_eq_error h
  · exact .budget h
  -- the compiler and the manifest are not checked
  obtain h | ⟨_, -, h⟩ := bind_eq_error h
  · obtain ⟨_, -, hread⟩ := fieldOr_eq_error h
    simp at hread
  obtain h | ⟨_, -, h⟩ := bind_eq_error h
  · obtain ⟨_, -, hread⟩ := fieldOr_eq_error h
    simp at hread
  · simp [pure, Except.pure] at h

/-- A value that is no path is refused as such. -/
theorem asPath_eq_error {value : Value} (h : asPath value = .error fault) :
    fault = .notAPath value := by
  unfold asPath at h
  split at h
  · simp at h
  · exact (Except.error.inj h).symm

/-- A value that is no place of a toolchain is refused as no path. -/
theorem asSysroot_eq_error {value : Value} (h : asSysroot value = .error fault) :
    fault = .notAPath value := by
  unfold asSysroot at h
  split at h
  · simp at h
  · cases hpath : asPath value with
    | ok path => simp [hpath, Except.map] at h
    | error e =>
      simp only [hpath, Except.map, Except.error.injEq] at h
      exact h ▸ asPath_eq_error hpath

/-- A value without elements is refused as the components. -/
theorem asItems_eq_error {value : Value} (h : asItems value = .error fault) :
    fault = .noElements value ∧ value.elements? = none := by
  unfold asItems at h
  split at h
  · simp at h
  · split at h
    · simp at h
    · next hnone => exact ⟨(Except.error.inj h).symm, hnone⟩

/-- A value that is no name is refused as a component. -/
theorem asName_eq_error {value : Value} (h : asName value = .error fault) :
    fault = .badComponent value := by
  unfold asName at h
  split at h
  · split_ifs at h
    exact (Except.error.inj h).symm
  · exact (Except.error.inj h).symm

/-- Values that are refused as names are refused for one of them. -/
theorem mapM_asName_eq_error {items : List Value} (h : items.mapM asName = .error fault) :
    ∃ value ∈ items, fault = .badComponent value := by
  induction items with
  | nil => simp [pure, Except.pure] at h
  | cons item items ih =>
    rw [List.mapM_cons] at h
    obtain h | ⟨_, -, h⟩ := bind_eq_error h
    · exact ⟨item, List.mem_cons_self, asName_eq_error h⟩
    · obtain h | ⟨_, -, h⟩ := bind_eq_error h
      · obtain ⟨value, hvalue, hfault⟩ := ih h
        exact ⟨value, List.mem_cons_of_mem _ hvalue, hfault⟩
      · simp [pure, Except.pure] at h

/-- Components are refused if there are none, or one of them is no name. -/
theorem asNames_eq_error {items : List Value} (h : asNames items = .error fault) :
    fault = .noComponents ∨ ∃ value ∈ items, fault = .badComponent value := by
  rw [asNames] at h
  split_ifs at h
  · exact .inl (Except.error.inj h).symm
  · exact .inr (mapM_asName_eq_error h)

/-- Only truth values turn stubs on or off. -/
theorem asStubbing_eq_error {value : Value} (h : asStubbing value = .error fault) :
    fault = .badStubbing value ∧ ∀ b, value ≠ .bool b := by
  unfold asStubbing at h
  split at h
  · simp at h
  · next hne => exact ⟨(Except.error.inj h).symm, fun b => hne b⟩

/-- A value that is no budget is refused as such. -/
theorem asBudget_eq_error {value : Value} (h : asBudget value = .error fault) :
    fault = .badBudget value := by
  unfold asBudget at h
  split at h
  · simp at h
  · exact (Except.error.inj h).symm

/-- A field at which settings fail is named, and nothing else is wrong with the mapping. -/
theorem UpdateFails.ne_wrongKind (h : UpdateFails settings fields fault) :
    fault ≠ .unsortableKeys ∧ ∀ name, fault ≠ .unknownField name := by
  cases h with
  | sysroot h =>
    obtain ⟨_, -, h⟩ := fieldOr_eq_error h
    simp [asSysroot_eq_error h]
  | outputDir h =>
    obtain ⟨_, -, h⟩ := fieldOr_eq_error h
    simp [asPath_eq_error h]
  | items h =>
    obtain ⟨_, -, h⟩ := fieldOr_eq_error h
    simp [asItems_eq_error h]
  | names _ h =>
    obtain rfl | ⟨_, -, rfl⟩ := asNames_eq_error h <;> simp
  | stubbing h =>
    obtain ⟨_, -, h⟩ := fieldOr_eq_error h
    simp [asStubbing_eq_error h]
  | budget h =>
    obtain ⟨_, -, h⟩ := fieldOr_eq_error h
    simp [asBudget_eq_error h]

/-- Reading breaks off if keys cannot be sorted, or if a value would have to be shown that cannot
be. -/
theorem readingBreakdown?_eq_some_iff : fault.readingBreakdown? = some breakdown ↔
    (breakdown = .wrongKind ∧ (fault = .unsortableKeys ∨ ∃ name, fault = .unknownField name)) ∨
    (breakdown = .impossibleValue ∧ ∃ beginning value,
      fault.shownValue? = some (beginning, value) ∧ value.literal? = none) := by
  unfold SettingsFault.readingBreakdown?
  cases fault <;> simp [SettingsFault.shownValue?, and_comm, @eq_comm _ breakdown]

/-- The unknown keys cannot be shown exactly if some key is no string. -/
theorem unknownKeys?_eq_none_iff {members : List (Value × Value)} :
    unknownKeys? members = none ↔ ∃ member ∈ members, ∀ name, member.1 ≠ .string name := by
  induction members with
  | nil => simp [unknownKeys?]
  | cons member members ih =>
    rw [unknownKeys?] at ih ⊢
    obtain ⟨key, value⟩ := member
    rw [List.map_cons, List.foldr_cons, List.exists_mem_cons_iff, ← ih]
    cases key with
    | string name =>
      by_cases hknown : name ∈ fieldNames <;> simp [hknown]
    | _ => simp

/-- Reading a mapping breaks off for these two reasons. -/
theorem readingBreakdown?_of_ofMapping {members : List (Value × Value)}
    (h : ofMapping members = .error fault) (hbreak : fault.readingBreakdown? = some breakdown) :
    (breakdown = .wrongKind ∧ ∃ member ∈ members, ∀ name, member.1 ≠ .string name) ∨
    (breakdown = .impossibleValue ∧ ∃ beginning value,
      fault.shownValue? = some (beginning, value) ∧ value.literal? = none) := by
  obtain ⟨hkind, hfault⟩ | hshown := readingBreakdown?_eq_some_iff.mp hbreak
  · refine .inl ⟨hkind, ?_⟩
    rw [ofMapping] at h
    split at h
    · next hkeys => exact unknownKeys?_eq_none_iff.mp hkeys
    · obtain ⟨hsortable, hknown⟩ := (updateFails_of_update h).ne_wrongKind
      obtain hfault | ⟨name, hfault⟩ := hfault
      · exact absurd hfault hsortable
      · exact absurd hfault (hknown name)
    · simp [← Except.error.inj h] at hfault
  · exact .inr hshown

end Settings

end FlatCrate
