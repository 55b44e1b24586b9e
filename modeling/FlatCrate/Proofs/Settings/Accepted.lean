import FlatCrate.Proofs.Settings
import FlatCrate.Value.OfJson

/-!
# Which mappings are accepted

A mapping of names to documents gives settings exactly if all its names are fields and each field
that is checked holds a document of its kind. Every field that is not given is at its standard.

A mapping that is not accepted is reported, but for one slip: a rejected document is shown in the
message, and a whole number of more than 4300 digits cannot be. Then the program breaks off.

Documents may be nested to any depth here. How deep a program may nest its calls when it reads or
shows one is left out.
-/

namespace FlatCrate

/-- A document that is a whole number of more than 4300 digits, or holds one. -/
inductive Json.HoldsLong : Json → Prop
  | integer {n : Int} : Nat.pow 10 4300 ≤ n.natAbs → HoldsLong (.integer n)
  | item {items : List Json} {item : Json} :
      item ∈ items → item.HoldsLong → HoldsLong (.array items)
  | member {members : List (String × Json)} {member : String × Json} :
      member ∈ members → member.2.HoldsLong → HoldsLong (.object members)

namespace Value

/-! ## What cannot be shown -/

/-- A whole number cannot be shown from the bound on. -/
theorem isShowable_eq_false_iff {n : Int} : isShowable n = false ↔ Nat.pow 10 4300 ≤ n.natAbs := by
  rw [isShowable]
  -- the bound is not to be evaluated
  generalize Nat.pow 10 4300 = bound
  exact decide_eq_false_iff_not.trans Nat.not_lt

mutual

/-- A document has no literal exactly if there is a whole number in it that is too long. -/
theorem literal?_ofJson_eq_none_iff :
    ∀ document : Json, (ofJson document).literal? = none ↔ document.HoldsLong
  | .null | .float _ | .string _ => by
    constructor <;> intro h
    · simp [ofJson, literal?] at h
    · cases h
  | .bool b => by
    constructor <;> intro h
    · cases b <;> simp [ofJson, literal?] at h
    · cases h
  | .integer n => by
    have hliteral : (ofJson (.integer n)).literal? = none ↔ Nat.pow 10 4300 ≤ n.natAbs := by
      rw [ofJson, literal?, integerLiteral?, ← isShowable_eq_false_iff]
      cases isShowable n <;> simp
    rw [hliteral]
    exact ⟨.integer, fun h => by cases h; assumption⟩
  | .array items => by
    rw [ofJson, literal?, Option.map_eq_none_iff, literals?_ofJsonItems_eq_none_iff items]
    constructor
    · rintro ⟨item, hitem, hlong⟩
      exact .item hitem hlong
    · rintro (_ | ⟨hitem, hlong⟩)
      exact ⟨_, hitem, hlong⟩
  | .object members => by
    rw [ofJson, literal?, Option.map_eq_none_iff, memberLiterals?_ofJsonMembers_eq_none_iff members]
    constructor
    · rintro ⟨member, hmember, hlong⟩
      exact .member hmember hlong
    · rintro (_ | _ | ⟨hmember, hlong⟩)
      exact ⟨_, hmember, hlong⟩

/-- Items have no literals exactly if one of them holds a number that is too long. -/
theorem literals?_ofJsonItems_eq_none_iff :
    ∀ items : List Json, literals? (ofJsonItems items) = none ↔ ∃ item ∈ items, item.HoldsLong
  | [] => by simp [ofJsonItems, literals?]
  | item :: items => by
    have hitem := literal?_ofJson_eq_none_iff item
    have hitems := literals?_ofJsonItems_eq_none_iff items
    rw [ofJsonItems, literals?, List.exists_mem_cons_iff, ← hitem, ← hitems]
    cases (ofJson item).literal? <;> cases literals? (ofJsonItems items) <;> simp

/-- Members have no literals exactly if one of them holds a number that is too long. -/
theorem memberLiterals?_ofJsonMembers_eq_none_iff :
    ∀ members : List (String × Json), memberLiterals? (ofJsonMembers members) = none ↔
      ∃ member ∈ members, member.2.HoldsLong
  | [] => by simp [ofJsonMembers, memberLiterals?]
  | (name, document) :: members => by
    have hitem := literal?_ofJson_eq_none_iff document
    have hitems := memberLiterals?_ofJsonMembers_eq_none_iff members
    rw [ofJsonMembers, memberLiterals?, List.exists_mem_cons_iff, ← hitem, ← hitems]
    cases (ofJson document).literal? <;> cases memberLiterals? (ofJsonMembers members) <;>
      simp [literal?]

end

/-! ## Documents as values -/

/-- The items of an array become values one by one. -/
theorem ofJsonItems_eq_map (items : List Json) : ofJsonItems items = items.map ofJson := by
  induction items with
  | nil => rfl
  | cons item items ih => rw [ofJsonItems, List.map_cons, ih]

/-- The members of an object become values one by one. -/
theorem ofJsonMembers_eq_map (members : List (String × Json)) :
    ofJsonMembers members = members.map fun member => (.string member.1, ofJson member.2) := by
  induction members with
  | nil => rfl
  | cons member members ih => rw [ofJsonMembers, List.map_cons, ih]

/-- A document is a string as a value only if it is one itself. -/
theorem ofJson_eq_string_iff {document : Json} {text : String} :
    ofJson document = .string text ↔ document = .string text := by
  cases document <;> simp [ofJson]

/-- Items become strings exactly if they are these strings. -/
theorem ofJsonItems_eq_strings_iff {items : List Json} {names : List String} :
    ofJsonItems items = names.map .string ↔ items = names.map .string := by
  rw [ofJsonItems_eq_map]
  induction items generalizing names with
  | nil => cases names <;> simp
  | cons item items ih => cases names <;> simp [ih, ofJson_eq_string_iff]

/-- The keys of an object are strings as values. -/
theorem map_fst_ofJsonMembers (members : List (String × Json)) :
    (ofJsonMembers members).map (·.1) = (members.map (·.1)).map .string := by
  simp [ofJsonMembers_eq_map, Function.comp_def]

end Value

namespace Settings

variable {members : List (String × Json)} {document : Json} {names : List String}
  {settings : Settings} {fault : SettingsFault}

/-! ## Fields and their documents -/

/-- The document of a path. -/
def IsPath (document : Json) (path : Path) : Prop :=
  ∃ text, document = .string text ∧ path = .ofString text

/-- The document of a sysroot; null gives none. -/
def IsSysroot (document : Json) (sysroot : Option Path) : Prop :=
  (document = .null ∧ sysroot = none) ∨ ∃ path, IsPath document path ∧ sysroot = some path

/-- The document of a truth value. -/
def IsFlag (document : Json) (b : Bool) : Prop := document = .bool b

/-- The document of a budget. -/
def IsBudget (document : Json) (n : Nat) : Prop := document = .integer n

/-- The document of a value that is taken as it is. -/
def IsAny (document : Json) (value : Value) : Prop := value = .ofJson document

/-- A document that lists names: a single one, the elements of an array or the keys of an object.
There is at least one name, and none is empty. -/
inductive ListsNames : Json → List String → Prop
  | single {name : String} : name ≠ "" → ListsNames (.string name) [name]
  | elements {names : List String} : names ≠ [] → "" ∉ names → ListsNames (Json.strings names) names
  | keys {members : List (String × Json)} : members.map (·.1) ≠ [] → "" ∉ members.map (·.1) →
      ListsNames (.object members) (members.map (·.1))

/-- A field holds what its document gives, or its standard if it is not given. -/
def Holds {α : Type} (members : List (String × Json)) (field : String) (is : Json → α → Prop)
    (standard a : α) : Prop :=
  match members.lookup field with
  | none => a = standard
  | some document => is document a

/-- The documents that a mapping may hold. -/
structure IsAcceptable (members : List (String × Json)) : Prop where
  known : ∀ member ∈ members, member.1 ∈ fieldNames
  sysroot : ∀ document, members.lookup "sysroot" = some document →
    document = .null ∨ ∃ text, document = .string text
  outputDir : ∀ document, members.lookup "output_dir" = some document →
    ∃ text, document = .string text
  components : ∀ document, members.lookup "components" = some document →
    (∃ name, name ≠ "" ∧ document = .string name) ∨
    (∃ items, items ≠ [] ∧ document = .array items ∧
      ∀ item ∈ items, ∃ name, name ≠ "" ∧ item = .string name) ∨
    ∃ inner, inner ≠ [] ∧ document = .object inner ∧ ∀ member ∈ inner, member.1 ≠ ""
  stubbing : ∀ document, members.lookup "strip_bodies" = some document → ∃ b, document = .bool b
  budget : ∀ document, members.lookup "budget" = some document →
    ∃ n : Nat, document = .integer n

/-- The settings that a mapping gives. -/
structure Gives (members : List (String × Json)) (settings : Settings) : Prop where
  sysroot : Holds members "sysroot" IsSysroot none settings.sysroot
  compiler : Holds members "rustc" IsAny (.string "rustc") settings.compiler
  outputDir : Holds members "output_dir" IsPath (.ofString "www") settings.outputDir
  components : Holds members "components" ListsNames ["std", "alloc", "core"] settings.components
  budget : Holds members "budget" IsBudget 4000 settings.budget
  stubbing : Holds members "strip_bodies" IsFlag false settings.stubbing
  manifest : Holds members "manifest" IsAny (.string "crates.json") settings.manifest

/-! ## Fields that are read -/

/-- A document is taken for a path exactly if it is one. -/
theorem asPath_ofJson_eq_ok_iff {path : Path} :
    asPath (.ofJson document) = .ok path ↔ IsPath document path := by
  rw [IsPath]
  cases document <;> simp [Value.ofJson, asPath, eq_comm]

/-- A document is taken for the place of a toolchain exactly if it is one. -/
theorem asSysroot_ofJson_eq_ok_iff {sysroot : Option Path} :
    asSysroot (.ofJson document) = .ok sysroot ↔ IsSysroot document sysroot := by
  rw [IsSysroot]
  cases document <;> simp [IsPath, Value.ofJson, asSysroot, asPath, Except.map, eq_comm]

/-- A document turns stubs on or off exactly if it is a truth value. -/
theorem asStubbing_ofJson_eq_ok_iff {b : Bool} :
    asStubbing (.ofJson document) = .ok b ↔ IsFlag document b := by
  rw [IsFlag]
  cases document <;> simp [Value.ofJson, asStubbing]

/-- A document is taken for a budget exactly if it is one. -/
theorem asBudget_ofJson_eq_ok_iff {n : Nat} :
    asBudget (.ofJson document) = .ok n ↔ IsBudget document n := by
  rw [IsBudget]
  cases document with
  | integer i =>
    cases i with
    | ofNat m =>
      exact ⟨fun h => congrArg (fun k : Nat => Json.integer k) (Except.ok.inj h),
        fun h => congrArg Except.ok (Int.ofNat.inj (Json.integer.inj h))⟩
    | negSucc m => simp [Value.ofJson, asBudget]
  | _ => simp [Value.ofJson, asBudget]

/-- A field that is not checked takes every document. -/
theorem ok_ofJson_eq_ok_iff {value : Value} :
    (.ok (.ofJson document) : Except SettingsFault Value) = .ok value ↔ IsAny document value := by
  rw [IsAny, Except.ok.injEq, eq_comm]

/-- Two computations in a row give a result exactly if both do. -/
theorem bind_eq_ok_iff {ε α β : Type} {first : Except ε α} {rest : α → Except ε β} {b : β} :
    first >>= rest = .ok b ↔ ∃ a, first = .ok a ∧ rest a = .ok b :=
  ⟨exists_of_bind_eq_ok, fun ⟨_, hfirst, hrest⟩ => by rw [hfirst]; exact hrest⟩

/-- A value is taken for a name exactly if it is a text that is not empty. -/
theorem asName_eq_ok_iff {value : Value} {name : String} :
    asName value = .ok name ↔ name ≠ "" ∧ value = .string name := by
  cases value with
  | string s =>
    rw [asName]
    split <;> grind
  | _ => simp [asName]

/-- Values are taken for names exactly if they are texts and none of them is empty. -/
theorem mapM_asName_eq_ok_iff {items : List Value} :
    items.mapM asName = .ok names ↔ "" ∉ names ∧ items = names.map .string := by
  induction items generalizing names with
  | nil => cases names <;> simp [pure, Except.pure]
  | cons item items ih =>
    simp only [List.mapM_cons, bind_eq_ok_iff, asName_eq_ok_iff, ih, pure, Except.pure,
      Except.ok.injEq]
    constructor
    · rintro ⟨name, ⟨hname, rfl⟩, others, ⟨hothers, rfl⟩, rfl⟩
      exact ⟨by simp [hothers, Ne.symm hname], rfl⟩
    · rintro ⟨hnames, hitems⟩
      cases names with
      | nil => simp at hitems
      | cons name others =>
        rw [List.map_cons, List.cons.injEq] at hitems
        rw [List.mem_cons, not_or] at hnames
        exact ⟨name, ⟨Ne.symm hnames.1, hitems.1⟩, others, ⟨hnames.2, hitems.2⟩, rfl⟩

/-- Values are taken for components exactly if they are texts, there are some, and none is empty. -/
theorem asNames_eq_ok_iff {items : List Value} :
    asNames items = .ok names ↔ names ≠ [] ∧ "" ∉ names ∧ items = names.map .string := by
  rw [asNames]
  cases items with
  | nil => cases names <;> simp
  | cons item items =>
    rw [List.isEmpty_cons, if_neg Bool.false_ne_true, mapM_asName_eq_ok_iff]
    cases names <;> simp

/-- Reading the components of a document gives the names that it lists. -/
theorem asItems_bind_asNames_eq_ok_iff :
    asItems (.ofJson document) >>= asNames = .ok names ↔ ListsNames document names := by
  simp only [bind_eq_ok_iff, asNames_eq_ok_iff]
  constructor
  · rintro ⟨items, hitems, hnames, hempty, rfl⟩
    cases document with
    | string text =>
      obtain ⟨name, rfl, ⟨⟩⟩ := List.map_eq_singleton_iff.mp (Except.ok.inj hitems).symm
      exact .single (Ne.symm (by simpa using hempty))
    | array inner =>
      obtain rfl := Value.ofJsonItems_eq_strings_iff.mp (Except.ok.inj hitems)
      exact .elements hnames hempty
    | object inner =>
      have hkeys := (Value.map_fst_ofJsonMembers inner).symm.trans (Except.ok.inj hitems)
      obtain rfl := List.map_injective_iff.mpr (fun _ _ => Value.string.inj) hkeys
      exact .keys hnames hempty
    | _ => simp [Value.ofJson, asItems, Value.elements?] at hitems
  · rintro (hname | ⟨hnames, hempty⟩ | ⟨hnames, hempty⟩)
    · exact ⟨_, rfl, by simp, by simpa using Ne.symm hname, rfl⟩
    · exact ⟨_, rfl, hnames, hempty, Value.ofJsonItems_eq_strings_iff.mpr rfl⟩
    · exact ⟨_, rfl, hnames, hempty, Value.map_fst_ofJsonMembers _⟩

/-- The fields of an object are its members. -/
theorem givenFields_ofJsonMembers (members : List (String × Json)) :
    givenFields (Value.ofJsonMembers members) =
      members.map fun member => (member.1, .ofJson member.2) := by
  simp [givenFields, Value.ofJsonMembers_eq_map, List.filterMap_map]

/-- A field is given with the document of its member. -/
theorem lookup_givenFields (members : List (String × Json)) (field : String) :
    (givenFields (Value.ofJsonMembers members)).lookup field =
      (members.lookup field).map .ofJson := by
  rw [givenFields_ofJsonMembers]
  induction members with
  | nil => rfl
  | cons member members ih =>
    rw [List.map_cons, List.lookup_cons, List.lookup_cons, ih]
    cases field == member.1 <;> rfl

/-- What the check of a field accepts. -/
theorem fieldOr_eq_ok_iff {α : Type} {read : Value → Except SettingsFault α} {is : Json → α → Prop}
    (hread : ∀ {document a}, read (.ofJson document) = .ok a ↔ is document a) {field : String}
    {standard a : α} : fieldOr (givenFields (Value.ofJsonMembers members)) field read standard =
      .ok a ↔ Holds members field is standard a := by
  rw [fieldOr, lookup_givenFields, Holds]
  cases members.lookup field with
  | none => exact ⟨fun h => (Except.ok.inj h).symm, fun h => congrArg Except.ok h.symm⟩
  | some document => exact hread

/-- A mapping of fields is read exactly if each of them is. -/
theorem update_eq_ok_iff {given : Settings} {fields : List (String × Value)} :
    settings.update fields = .ok given ↔
      fieldOr fields "sysroot" asSysroot settings.sysroot = .ok given.sysroot ∧
      fieldOr fields "output_dir" asPath settings.outputDir = .ok given.outputDir ∧
      fieldOr fields "components" asItems (settings.components.map .string) >>= asNames =
        .ok given.components ∧
      fieldOr fields "strip_bodies" asStubbing settings.stubbing = .ok given.stubbing ∧
      fieldOr fields "budget" asBudget settings.budget = .ok given.budget ∧
      fieldOr fields "rustc" .ok settings.compiler = .ok given.compiler ∧
      fieldOr fields "manifest" .ok settings.manifest = .ok given.manifest := by
  simp only [update, bind_eq_ok_iff]
  constructor
  · rintro ⟨sysroot, hsysroot, outputDir, houtputDir, items, hitems, components, hcomponents,
      stubbing, hstubbing, budget, hbudget, compiler, hcompiler, manifest, hmanifest, h⟩
    obtain rfl := Except.ok.inj h
    exact ⟨hsysroot, houtputDir, ⟨items, hitems, hcomponents⟩, hstubbing, hbudget, hcompiler,
      hmanifest⟩
  · rintro ⟨hsysroot, houtputDir, ⟨items, hitems, hcomponents⟩, hstubbing, hbudget, hcompiler,
      hmanifest⟩
    exact ⟨_, hsysroot, _, houtputDir, _, hitems, _, hcomponents, _, hstubbing, _, hbudget, _,
      hcompiler, _, hmanifest, rfl⟩

/-- The components are checked in two steps, whether they are given or not. -/
theorem fieldOr_bind_asNames (fields : List (String × Value)) (field : String)
    (hnames : names ≠ []) (hempty : "" ∉ names) :
    fieldOr fields field asItems (names.map .string) >>= asNames =
      fieldOr fields field (fun value => asItems value >>= asNames) names := by
  rw [fieldOr, fieldOr]
  cases fields.lookup field with
  | none => exact asNames_eq_ok_iff.mpr ⟨hnames, hempty, rfl⟩
  | some value => rfl

/-- Fields give settings exactly if each of them holds a document of its kind. -/
theorem update_eq_ok_iff_gives : ({} : Settings).update
    (givenFields (Value.ofJsonMembers members)) = .ok settings ↔ Gives members settings := by
  rw [update_eq_ok_iff, fieldOr_eq_ok_iff asSysroot_ofJson_eq_ok_iff,
    fieldOr_eq_ok_iff asPath_ofJson_eq_ok_iff,
    fieldOr_bind_asNames _ _ (by decide) (by decide),
    fieldOr_eq_ok_iff asItems_bind_asNames_eq_ok_iff,
    fieldOr_eq_ok_iff asStubbing_ofJson_eq_ok_iff, fieldOr_eq_ok_iff asBudget_ofJson_eq_ok_iff,
    fieldOr_eq_ok_iff ok_ofJson_eq_ok_iff, fieldOr_eq_ok_iff ok_ofJson_eq_ok_iff]
  constructor
  · rintro ⟨hsysroot, houtputDir, hcomponents, hstubbing, hbudget, hcompiler, hmanifest⟩
    exact ⟨hsysroot, hcompiler, houtputDir, hcomponents, hbudget, hstubbing, hmanifest⟩
  · rintro ⟨hsysroot, hcompiler, houtputDir, hcomponents, hbudget, hstubbing, hmanifest⟩
    exact ⟨hsysroot, houtputDir, hcomponents, hstubbing, hbudget, hcompiler, hmanifest⟩

/-! ## Mappings that are accepted -/

/-- The names that are no fields. -/
theorem unknownKeys?_ofJsonMembers (members : List (String × Json)) :
    unknownKeys? (Value.ofJsonMembers members) =
      some ((members.map (·.1)).filter (· ∉ fieldNames)) := by
  rw [unknownKeys?, Value.map_fst_ofJsonMembers]
  induction members.map (·.1) with
  | nil => rfl
  | cons name names ih =>
    rw [List.map_cons, List.foldr_cons, ih]
    by_cases hknown : name ∈ fieldNames <;> simp [hknown]

/-- A field can be read exactly if it is not given or its document is of its kind. -/
theorem exists_holds_iff {α : Type} {field : String} {is : Json → α → Prop} {standard : α} :
    (∃ a, Holds members field is standard a) ↔
      ∀ document, members.lookup field = some document → ∃ a, is document a := by
  simp only [Holds]
  cases members.lookup field <;> simp

/-- Null and the strings are places of toolchains. -/
theorem exists_isSysroot_iff : (∃ sysroot, IsSysroot document sysroot) ↔
    document = .null ∨ ∃ text, document = .string text := by
  simp [IsSysroot, IsPath, exists_or]

/-- The strings are paths. -/
theorem exists_isPath_iff : (∃ path, IsPath document path) ↔ ∃ text, document = .string text := by
  simp [IsPath]

/-- Items that are strings and not empty are the strings of some names. -/
theorem exists_map_string {items : List Json}
    (h : ∀ item ∈ items, ∃ name, name ≠ "" ∧ item = .string name) :
    ∃ names : List String, "" ∉ names ∧ names.map .string = items := by
  induction items with
  | nil => exact ⟨[], List.not_mem_nil, rfl⟩
  | cons item items ih =>
    obtain ⟨⟨name, hname, rfl⟩, hitems⟩ := List.forall_mem_cons.mp h
    obtain ⟨names, hempty, rfl⟩ := ih hitems
    exact ⟨name :: names, by simp [Ne.symm hname, hempty], rfl⟩

/-- A name, a list of names, and an object with names as keys are components. -/
theorem exists_listsNames_iff : (∃ names, ListsNames document names) ↔
    (∃ name, name ≠ "" ∧ document = .string name) ∨
    (∃ items, items ≠ [] ∧ document = .array items ∧
      ∀ item ∈ items, ∃ name, name ≠ "" ∧ item = .string name) ∨
    ∃ inner, inner ≠ [] ∧ document = .object inner ∧ ∀ member ∈ inner, member.1 ≠ "" := by
  constructor
  · rintro ⟨names, hname | ⟨hnames, hempty⟩ | ⟨hnames, hempty⟩⟩
    · exact .inl ⟨_, hname, rfl⟩
    · refine .inr (.inl ⟨_, by simpa using hnames, rfl, fun item hitem => ?_⟩)
      obtain ⟨name, hname, rfl⟩ := List.mem_map.mp hitem
      exact ⟨name, fun heq => hempty (heq ▸ hname), rfl⟩
    · refine .inr (.inr ⟨_, by simpa using hnames, rfl, fun member hmember heq => hempty ?_⟩)
      exact heq ▸ List.mem_map_of_mem hmember
  · rintro (⟨name, hname, rfl⟩ | ⟨items, hitems, rfl, hnames⟩ | ⟨inner, hinner, rfl, hnames⟩)
    · exact ⟨_, .single hname⟩
    · obtain ⟨names, hempty, rfl⟩ := exists_map_string hnames
      exact ⟨names, .elements (by simpa using hitems) hempty⟩
    · refine ⟨_, .keys (by simpa using hinner) fun hempty => ?_⟩
      obtain ⟨member, hmember, heq⟩ := List.mem_map.mp hempty
      exact hnames member hmember heq

/-- The names of components are some, and none is empty. -/
theorem ListsNames.named (h : ListsNames document names) : names ≠ [] ∧ "" ∉ names := by
  cases h with
  | single hname => exact ⟨by simp, by simpa using Ne.symm hname⟩
  | elements hnames hempty => exact ⟨hnames, hempty⟩
  | keys hnames hempty => exact ⟨hnames, hempty⟩

/-- There is at least one component, and none is empty, whether they are given or not. -/
theorem Gives.named (h : Gives members settings) :
    settings.components ≠ [] ∧ "" ∉ settings.components := by
  have hcomponents := h.components
  rw [Holds] at hcomponents
  split at hcomponents
  · rw [hcomponents]
    decide
  · exact hcomponents.named

/-- A mapping is acceptable exactly if it names fields only and gives settings. -/
theorem isAcceptable_iff : IsAcceptable members ↔
    (∀ member ∈ members, member.1 ∈ fieldNames) ∧ ∃ settings, Gives members settings := by
  constructor
  · intro h
    obtain ⟨sysroot, hsysroot⟩ := exists_holds_iff.mpr fun document hdocument =>
      exists_isSysroot_iff.mpr (h.sysroot document hdocument)
    obtain ⟨outputDir, houtputDir⟩ := exists_holds_iff.mpr fun document hdocument =>
      exists_isPath_iff.mpr (h.outputDir document hdocument)
    obtain ⟨components, hcomponents⟩ := exists_holds_iff.mpr fun document hdocument =>
      exists_listsNames_iff.mpr (h.components document hdocument)
    obtain ⟨stubbing, hstubbing⟩ := exists_holds_iff.mpr h.stubbing
    obtain ⟨budget, hbudget⟩ := exists_holds_iff.mpr h.budget
    have htaken (field : String) (standard : Value) :
        ∃ value, Holds members field IsAny standard value :=
      exists_holds_iff.mpr fun document _ => ⟨_, rfl⟩
    obtain ⟨compiler, hcompiler⟩ := htaken "rustc" (.string "rustc")
    obtain ⟨manifest, hmanifest⟩ := htaken "manifest" (.string "crates.json")
    exact ⟨h.known, { sysroot, compiler, outputDir, components, budget, stubbing, manifest },
      hsysroot, hcompiler, houtputDir, hcomponents, hbudget, hstubbing, hmanifest⟩
  · rintro ⟨hknown, settings, h⟩
    exact
      { known := hknown
        sysroot := fun document hdocument => exists_isSysroot_iff.mp
          (exists_holds_iff.mp ⟨_, h.sysroot⟩ document hdocument)
        outputDir := fun document hdocument => exists_isPath_iff.mp
          (exists_holds_iff.mp ⟨_, h.outputDir⟩ document hdocument)
        components := fun document hdocument => exists_listsNames_iff.mp
          (exists_holds_iff.mp ⟨_, h.components⟩ document hdocument)
        stubbing := exists_holds_iff.mp ⟨_, h.stubbing⟩
        budget := exists_holds_iff.mp ⟨_, h.budget⟩ }

/-- A mapping gives settings exactly if it names fields only and each holds a document of its kind.
-/
theorem ofMapping_eq_ok_iff : ofMapping (Value.ofJsonMembers members) = .ok settings ↔
    (∀ member ∈ members, member.1 ∈ fieldNames) ∧ Gives members settings := by
  have hnil : (members.map (·.1)).filter (· ∉ fieldNames) = [] ↔
      ∀ member ∈ members, member.1 ∈ fieldNames := by
    simp [List.filter_eq_nil_iff]
  rw [ofMapping, unknownKeys?_ofJsonMembers, ← hnil]
  cases (members.map (·.1)).filter (· ∉ fieldNames) with
  | nil => simp only [true_and, update_eq_ok_iff_gives]
  | cons name names => simp

/-! ## Mappings that are rejected -/

/-- A document that is not of the kind that its place asks for, and a fault that shows it. An empty
name is none of these: it is a string, and can always be shown. -/
inductive Rejects (members : List (String × Json)) : SettingsFault → Json → Prop
  | component {items : List Json} {item : Json} :
      members.lookup "components" = some (.array items) → item ∈ items →
      (∀ name, item ≠ .string name) →
      Rejects members (.badComponent (.ofJson item)) item
  | stubbing {document : Json} : members.lookup "strip_bodies" = some document →
      (∀ b, document ≠ .bool b) → Rejects members (.badStubbing (.ofJson document)) document
  | budget {document : Json} : members.lookup "budget" = some document →
      (∀ n : Nat, document ≠ .integer n) → Rejects members (.badBudget (.ofJson document)) document

/-- A refused field is reported with its document. -/
theorem Rejects.shownValue? (h : Rejects members fault document) :
    ∃ beginning, fault.shownValue? = some (beginning, .ofJson document) := by
  cases h <;> exact ⟨_, rfl⟩

/-- A field that is given and fails is given by a document. -/
theorem exists_document_of_fieldOr {α : Type} {field : String}
    {read : Value → Except SettingsFault α} {old : α}
    (h : fieldOr (givenFields (Value.ofJsonMembers members)) field read old = .error fault) :
    ∃ document, members.lookup field = some document ∧ read (.ofJson document) = .error fault := by
  obtain ⟨value, hvalue, hread⟩ := fieldOr_eq_error h
  rw [lookup_givenFields] at hvalue
  obtain ⟨document, hdocument, rfl⟩ := Option.map_eq_some_iff.mp hvalue
  exact ⟨document, hdocument, hread⟩

/-- An item of the components that cannot be shown is an element of an array. -/
theorem rejects_of_items {items : List Value} {value : Value}
    (hitems : fieldOr (givenFields (Value.ofJsonMembers members)) "components" asItems
      (({} : Settings).components.map .string) = .ok items)
    (hvalue : value ∈ items) (hliteral : value.literal? = none) :
    ∃ document, Rejects members (.badComponent value) document ∧ document.HoldsLong := by
  have hstrings (names : List String) : items ≠ names.map .string := by
    rintro rfl
    obtain ⟨name, -, rfl⟩ := List.mem_map.mp hvalue
    simp [Value.literal?] at hliteral
  rw [fieldOr, lookup_givenFields] at hitems
  cases hdocument : members.lookup "components" with
  | none =>
    rw [hdocument] at hitems
    exact absurd (Except.ok.inj hitems).symm (hstrings _)
  | some document =>
    rw [hdocument] at hitems
    cases document with
    | string text => exact absurd (Except.ok.inj hitems).symm (hstrings [text])
    | array inner =>
      rw [← Except.ok.inj hitems, Value.ofJsonItems_eq_map] at hvalue
      obtain ⟨item, hitem, rfl⟩ := List.mem_map.mp hvalue
      have hlong := (Value.literal?_ofJson_eq_none_iff item).mp hliteral
      refine ⟨item, .component hdocument hitem ?_, hlong⟩
      rintro name rfl
      cases hlong
    | object inner =>
      have hkeys := (Except.ok.inj hitems).symm.trans (Value.map_fst_ofJsonMembers inner)
      exact absurd hkeys (hstrings _)
    | _ => simp [Value.ofJson, asItems, Value.elements?] at hitems

/-- What cannot be shown of a fault is a document that it rejects. -/
theorem rejects_of_updateFails {beginning : String} {value : Value}
    (h : UpdateFails {} (givenFields (Value.ofJsonMembers members)) fault)
    (hshown : fault.shownValue? = some (beginning, value)) (hliteral : value.literal? = none) :
    ∃ document, Rejects members fault document ∧ document.HoldsLong := by
  cases h with
  | sysroot h =>
    obtain ⟨_, -, h⟩ := fieldOr_eq_error h
    simp [asSysroot_eq_error h, SettingsFault.shownValue?] at hshown
  | outputDir h =>
    obtain ⟨_, -, h⟩ := fieldOr_eq_error h
    simp [asPath_eq_error h, SettingsFault.shownValue?] at hshown
  | items h =>
    obtain ⟨_, -, h⟩ := fieldOr_eq_error h
    simp [asItems_eq_error h, SettingsFault.shownValue?] at hshown
  | names hitems h =>
    obtain rfl | ⟨item, hitem, rfl⟩ := asNames_eq_error h
    · simp [SettingsFault.shownValue?] at hshown
    · obtain ⟨-, rfl⟩ := Prod.mk.inj (Option.some.inj hshown)
      exact rejects_of_items hitems hitem hliteral
  | stubbing h =>
    obtain ⟨document, hdocument, h⟩ := exists_document_of_fieldOr h
    obtain ⟨rfl, hbool⟩ := asStubbing_eq_error h
    obtain ⟨-, rfl⟩ := Prod.mk.inj (Option.some.inj hshown)
    refine ⟨document, .stubbing hdocument ?_, Value.literal?_ofJson_eq_none_iff _ |>.mp hliteral⟩
    rintro b rfl
    exact hbool b rfl
  | budget h =>
    obtain ⟨document, hdocument, h⟩ := exists_document_of_fieldOr h
    obtain rfl := asBudget_eq_error h
    obtain ⟨-, rfl⟩ := Prod.mk.inj (Option.some.inj hshown)
    refine ⟨document, .budget hdocument ?_, Value.literal?_ofJson_eq_none_iff _ |>.mp hliteral⟩
    rintro n rfl
    simp [Value.ofJson, asBudget] at h

/-- What is shown of the fault of a mapping and cannot be shown is a document that it rejects. -/
theorem rejects_of_ofMapping {beginning : String} {value : Value}
    (h : ofMapping (Value.ofJsonMembers members) = .error fault)
    (hshown : fault.shownValue? = some (beginning, value)) (hliteral : value.literal? = none) :
    ∃ document, Rejects members fault document ∧ document.HoldsLong := by
  rw [ofMapping, unknownKeys?_ofJsonMembers] at h
  split at h
  · next hnone => simp at hnone
  · exact rejects_of_updateFails (updateFails_of_update h) hshown hliteral
  · simp [← Except.error.inj h, SettingsFault.shownValue?] at hshown

/-- A mapping gives settings exactly if it may hold what it holds, and these have the documents of
their fields and the standards of the others. Any other mapping has a fault, which is reported but
for one case: the message would have to show a rejected document with a whole number in it that is
too long to be shown. -/
theorem ofMapping_accepts_or_reports (members : List (String × Json)) :
    match ofMapping (Value.ofJsonMembers members) with
    | .ok settings => IsAcceptable members ∧ Gives members settings ∧
        settings.components ≠ [] ∧ "" ∉ settings.components
    | .error fault => ¬ IsAcceptable members ∧
        ∀ breakdown, fault.readingBreakdown? = some breakdown ↔
          breakdown = .impossibleValue ∧
            ∃ document, Rejects members fault document ∧ document.HoldsLong := by
  cases hresult : ofMapping (Value.ofJsonMembers members) with
  | ok settings =>
    obtain ⟨hknown, hgives⟩ := ofMapping_eq_ok_iff.mp hresult
    exact ⟨isAcceptable_iff.mpr ⟨hknown, settings, hgives⟩, hgives, hgives.named⟩
  | error fault =>
    refine ⟨fun hacceptable => ?_, fun breakdown => ?_⟩
    · obtain ⟨hknown, settings, hgives⟩ := isAcceptable_iff.mp hacceptable
      rw [ofMapping_eq_ok_iff.mpr ⟨hknown, hgives⟩] at hresult
      simp at hresult
    · constructor
      · intro hbreak
        obtain ⟨-, member, hmember, hkey⟩ | ⟨rfl, beginning, value, hshown, hliteral⟩ :=
          readingBreakdown?_of_ofMapping hresult hbreak
        · rw [Value.ofJsonMembers_eq_map] at hmember
          obtain ⟨given, -, rfl⟩ := List.mem_map.mp hmember
          exact absurd rfl (hkey given.1)
        · exact ⟨rfl, rejects_of_ofMapping hresult hshown hliteral⟩
      · rintro ⟨rfl, document, hrejects, hlong⟩
        obtain ⟨beginning, hshown⟩ := hrejects.shownValue?
        have hliteral := (Value.literal?_ofJson_eq_none_iff document).mpr hlong
        exact readingBreakdown?_eq_some_iff.mpr (.inr ⟨rfl, beginning, _, hshown, hliteral⟩)

/-- A negative budget that is too long to be shown is not reported. -/
theorem ofMapping_negative_budget (n : Nat) (hlong : Nat.pow 10 4300 ≤ n) : ∃ fault,
    ofMapping (Value.ofJsonMembers [("budget", .integer (.negSucc n))]) = .error fault ∧
      fault.readingBreakdown? = some .impossibleValue := by
  have hliteral := (Value.literal?_ofJson_eq_none_iff (.integer (.negSucc n))).mpr
    (.integer (Nat.le_succ_of_le hlong))
  exact ⟨.badBudget _, rfl, readingBreakdown?_eq_some_iff.mpr (.inr ⟨rfl, _, _, rfl, hliteral⟩)⟩

/-- A budget of more than 4300 digits is refused, but no message can show it. -/
theorem ofMapping_long_budget : ∃ fault,
    ofMapping (Value.ofJsonMembers [("budget", .integer (.negSucc (Nat.pow 16 3572)))]) =
      .error fault ∧ fault.readingBreakdown? = some .impossibleValue :=
  ofMapping_negative_budget _ (by decide +kernel)

end Settings

end FlatCrate
