import FlatCrate.Proofs.Json.Escaped

/-!
# Documents are read back

A document without numbers, in whose objects no name comes twice, is read back from the text that
is written for it, at every indentation. The proof follows the document: each value is read back in
front of any other text, and blanks and commas are all that stands between the values.
-/

namespace FlatCrate.Json

/-- The documents without numbers in whose objects no name comes twice. -/
inductive IsPlain : Json → Prop
  | null : IsPlain .null
  | bool (b : Bool) : IsPlain (.bool b)
  | string (s : String) : IsPlain (.string s)
  | array {items : List Json} : (∀ item ∈ items, IsPlain item) → IsPlain (.array items)
  | object {members : List (String × Json)} : (members.map (·.1)).Nodup →
      (∀ member ∈ members, IsPlain member.2) → IsPlain (.object members)

variable {document : Json} {items : List Json} {members found : List (String × Json)}
  {name : String} {value : Json} {indent depth outer fuel : Nat} {c : Char} {rest : List Char}

/-- A list of strings has no number in it. -/
theorem isPlain_strings (strings : List String) : (Json.strings strings).IsPlain :=
  .array (List.forall_mem_map.mpr fun s _ => .string s)

/-- A string or null has no number in it. -/
theorem isPlain_stringOrNull (s : Option String) : (stringOrNull s).IsPlain := by
  cases s with
  | none => exact .null
  | some s => exact .string s

/-! ## Blanks -/

/-- Nothing is skipped in front of a character that is no space. -/
theorem skipSpace_cons (h : isSpace c = false) (rest : List Char) :
    skipSpace (c :: rest) = c :: rest :=
  List.dropWhile_cons_of_neg (by simp [h])

/-- The blanks in front of a line are skipped. -/
theorem skipSpace_newLine (indent depth : Nat) (rest : List Char) :
    skipSpace (newLine indent depth ++ rest) = skipSpace rest := by
  have hblank : ∀ c ∈ newLine indent depth, isSpace c = true := by
    rw [newLine, List.forall_mem_cons]
    exact ⟨rfl, fun c hc => List.eq_of_mem_replicate hc ▸ rfl⟩
  exact List.dropWhile_append_of_pos hblank

/-! ## How documents are written -/

/-- The items are rendered one by one. -/
theorem renderItems_eq_map (indent depth : Nat) (items : List Json) :
    renderItems indent depth items = items.map (renderAt indent depth) := by
  induction items with
  | nil => rfl
  | cons item items ih => rw [renderItems, ih, List.map_cons]

/-- A member of an object as it is written. -/
def renderMember (indent depth : Nat) (member : String × Json) : List Char :=
  renderString member.1 ++ ':' :: ' ' :: renderAt indent depth member.2

/-- The members are rendered one by one. -/
theorem renderMembers_eq_map (indent depth : Nat) (members : List (String × Json)) :
    renderMembers indent depth members = members.map (renderMember indent depth) := by
  induction members with
  | nil => rfl
  | cons member members ih => rw [renderMembers, ih, List.map_cons, renderMember]

/-- Texts on lines of their own, with commas between them. -/
def separated (indent depth : Nat) (texts : List (List Char)) : List Char :=
  List.intercalate (',' :: newLine indent depth) texts

/-- Between two texts come a comma and a new line. -/
theorem separated_cons_cons (text next : List Char) (texts : List (List Char)) :
    separated indent depth (text :: next :: texts) =
      text ++ ',' :: (newLine indent depth ++ separated indent depth (next :: texts)) := by
  rw [separated, List.intercalate_cons_cons, ← separated]
  simp

/-- A single text is not separated from anything. -/
theorem separated_singleton (text : List Char) : separated indent depth [text] = text := by
  simp [separated]

/-- Texts on lines of their own begin with the first one. -/
theorem exists_separated_cons (text : List Char) (texts : List (List Char)) :
    ∃ more, separated indent depth (text :: texts) = text ++ more := by
  cases texts with
  | nil => exact ⟨[], by rw [separated_singleton, List.append_nil]⟩
  | cons next texts => exact ⟨_, separated_cons_cons text next texts⟩

/-- Brackets around some texts, in front of another text. -/
theorem bracketed_append (opening closing : Char) {texts : List (List Char)} (hne : texts ≠ [])
    (rest : List Char) : bracketed opening closing indent depth texts ++ rest =
      opening :: (newLine indent (depth + 1) ++ (separated indent (depth + 1) texts ++
        (newLine indent depth ++ closing :: rest))) := by
  rw [bracketed, if_neg (by simpa using hne), separated]
  simp

/-- Brackets take up room beside the texts between them. -/
theorem length_separated_lt {opening closing : Char} {texts : List (List Char)} (hne : texts ≠ [])
    (hfuel : (bracketed opening closing indent depth texts).length ≤ fuel + 1) :
    (separated indent (depth + 1) texts).length < fuel := by
  rw [bracketed, if_neg (by simpa using hne), ← separated] at hfuel
  simp only [List.length_append, List.length_cons, List.length_nil, newLine] at hfuel
  omega

/-- What is written for a plain document begins neither with a blank nor with a closing bracket. -/
theorem IsPlain.exists_renderAt (h : document.IsPlain) (indent depth : Nat) :
    ∃ c cs, renderAt indent depth document = c :: cs ∧ isSpace c = false ∧ c ≠ ']' := by
  have hbracketed (opening closing : Char) (texts : List (List Char)) :
      ∃ cs, bracketed opening closing indent depth texts = opening :: cs := by
    rw [bracketed]
    split <;> exact ⟨_, rfl⟩
  cases h with
  | null => exact ⟨'n', _, rfl, by decide, by decide⟩
  | bool b =>
    cases b with
    | true => exact ⟨'t', _, rfl, by decide, by decide⟩
    | false => exact ⟨'f', _, rfl, by decide, by decide⟩
  | string s => exact ⟨'"', _, rfl, by decide, by decide⟩
  | array _ =>
    obtain ⟨cs, hcs⟩ := hbracketed '[' ']' _
    exact ⟨'[', cs, hcs, by decide, by decide⟩
  | object _ _ =>
    obtain ⟨cs, hcs⟩ := hbracketed '\x7b' '\x7d' _
    exact ⟨'\x7b', cs, hcs, by decide, by decide⟩

/-- Nothing is skipped in front of a document. -/
theorem IsPlain.skipSpace_renderAt (h : document.IsPlain) (indent depth : Nat) (rest : List Char) :
    skipSpace (renderAt indent depth document ++ rest) =
      renderAt indent depth document ++ rest := by
  obtain ⟨c, cs, hcs, hspace, -⟩ := h.exists_renderAt indent depth
  rw [hcs, List.cons_append, skipSpace_cons hspace]

/-! ## Reading -/

/-- A document is read back from what is written for it, in front of any other text, if the number
that bounds the reading is not less than the length of what is written. -/
def ReadsBack (document : Json) : Prop :=
  ∀ indent depth fuel rest, (renderAt indent depth document).length ≤ fuel →
    readValue fuel (renderAt indent depth document ++ rest) = .ok (document, rest)

/-- The text of a document is not empty, so there is always room for one value. -/
theorem readsBack_of_succ (h : document.IsPlain)
    (hread : ∀ indent depth fuel rest, (renderAt indent depth document).length ≤ fuel + 1 →
      readValue (fuel + 1) (renderAt indent depth document ++ rest) = .ok (document, rest)) :
    ReadsBack document := by
  intro indent depth fuel rest hfuel
  cases fuel with
  | zero =>
    obtain ⟨c, cs, hcs, -⟩ := h.exists_renderAt indent depth
    simp [hcs] at hfuel
  | succ fuel => exact hread indent depth fuel rest hfuel

/-- A word or a number is read where no string, array or object begins. -/
theorem readValue_scalar (hstring : c ≠ '"') (harray : c ≠ '[') (hobject : c ≠ '\x7b') (fuel : Nat)
    (rest : List Char) : readValue (fuel + 1) (c :: rest) = readScalar (c :: rest) := by
  rw [readValue] <;> simp_all

/-- The items of an array are read unless the array is closed at once. -/
theorem readValue_array {cs : List Char} (h : ∀ more, skipSpace cs ≠ ']' :: more) (fuel : Nat) :
    readValue (fuel + 1) ('[' :: cs) =
      (readItems fuel (skipSpace cs)).map fun (items, rest) => (.array items, rest) := by
  rw [readValue]
  split
  · next more hclosed => exact absurd hclosed (h more)
  · rfl

/-- The members of an object are read unless the object is closed at once. -/
theorem readValue_object {cs : List Char} (h : ∀ more, skipSpace cs ≠ '\x7d' :: more) (fuel : Nat) :
    readValue (fuel + 1) ('\x7b' :: cs) =
      (readMembers fuel [] (skipSpace cs)).map fun (members, rest) => (.object members, rest) := by
  rw [readValue]
  split
  · next more hclosed => exact absurd hclosed (h more)
  · rfl

/-- Null is read back. -/
theorem readsBack_null : ReadsBack .null :=
  readsBack_of_succ .null fun _ _ fuel _ _ =>
    readValue_scalar (by decide) (by decide) (by decide) fuel _

/-- A truth value is read back. -/
theorem readsBack_bool (b : Bool) : ReadsBack (.bool b) := by
  refine readsBack_of_succ (.bool b) fun _ _ fuel _ _ => ?_
  cases b with
  | true => exact readValue_scalar (by decide) (by decide) (by decide) fuel _
  | false => exact readValue_scalar (by decide) (by decide) (by decide) fuel _

/-- A string is read back. -/
theorem readsBack_string (s : String) : ReadsBack (.string s) := by
  refine readsBack_of_succ (.string s) fun _ _ fuel rest _ => ?_
  rw [renderAt, renderString_append, readValue, readString_renderString]
  rfl

/-! ### Arrays -/

/-- Items on lines of their own begin neither with a blank nor with a closing bracket. -/
theorem exists_separated_items {item : Json} (h : item.IsPlain) (items : List Json) :
    ∃ c cs, separated indent depth ((item :: items).map (renderAt indent depth)) = c :: cs ∧
      isSpace c = false ∧ c ≠ ']' := by
  obtain ⟨c, cs, hcs, hspace, hclosing⟩ := h.exists_renderAt indent depth
  obtain ⟨more, hmore⟩ := @exists_separated_cons indent depth (renderAt indent depth item)
    (items.map (renderAt indent depth))
  exact ⟨c, cs ++ more, by rw [List.map_cons, hmore, hcs, List.cons_append], hspace, hclosing⟩

/-- Items are read back up to the closing bracket. -/
theorem readItems_separated (hne : items ≠ [])
    (hitems : ∀ item ∈ items, item.IsPlain ∧ ReadsBack item)
    (hfuel : (separated indent depth (items.map (renderAt indent depth))).length < fuel) :
    readItems fuel (separated indent depth (items.map (renderAt indent depth)) ++
      (newLine indent outer ++ ']' :: rest)) = .ok (items, rest) := by
  induction items generalizing fuel with
  | nil => exact absurd rfl hne
  | cons item items ih =>
    obtain ⟨fuel, rfl⟩ := Nat.exists_eq_succ_of_ne_zero (Nat.ne_zero_of_lt hfuel)
    obtain ⟨⟨-, hitem⟩, hothers⟩ := List.forall_mem_cons.mp hitems
    cases items with
    | nil =>
      rw [List.map_cons, List.map_nil, separated_singleton] at hfuel ⊢
      rw [readItems, hitem _ _ _ _ (Nat.le_of_lt_succ hfuel)]
      simp only [skipSpace_newLine, skipSpace_cons (show isSpace ']' = false by decide)]
    | cons next items =>
      obtain ⟨⟨hnext, -⟩, -⟩ := List.forall_mem_cons.mp hothers
      rw [List.map_cons, List.map_cons, separated_cons_cons, ← List.map_cons] at hfuel ⊢
      simp only [List.length_append, List.length_cons] at hfuel
      have hread := @ih fuel (List.cons_ne_nil _ _) hothers (by omega)
      obtain ⟨c, cs, hcs, hspace, -⟩ := exists_separated_items hnext items
      rw [List.append_assoc, readItems, hitem _ _ _ _ (by omega)]
      rw [hcs, List.cons_append] at hread
      simp only [List.cons_append, skipSpace_cons (show isSpace ',' = false by decide),
        List.append_assoc, skipSpace_newLine, hcs, skipSpace_cons hspace, hread]
      rfl

/-- An array is read back if its items are. -/
theorem readsBack_array (hitems : ∀ item ∈ items, item.IsPlain ∧ ReadsBack item) :
    ReadsBack (.array items) := by
  refine readsBack_of_succ (.array fun item hitem => (hitems item hitem).1)
    fun indent depth fuel rest hfuel => ?_
  rw [renderAt, renderItems_eq_map] at hfuel ⊢
  cases items with
  | nil => rfl
  | cons item items =>
    have hne : (item :: items).map (renderAt indent (depth + 1)) ≠ [] := List.cons_ne_nil _ _
    have hread := @readItems_separated _ indent (depth + 1) depth fuel rest (List.cons_ne_nil _ _)
      hitems (length_separated_lt hne hfuel)
    obtain ⟨c, cs, hcs, hspace, hclosing⟩ :=
      exists_separated_items (hitems item List.mem_cons_self).1 items
    rw [hcs, List.cons_append] at hread
    rw [bracketed_append '[' ']' hne, hcs, List.cons_append, readValue_array]
    · rw [skipSpace_newLine, skipSpace_cons hspace, hread]
      rfl
    · rw [skipSpace_newLine, skipSpace_cons hspace]
      exact fun more heq => hclosing (List.cons.inj heq).1

/-! ### Objects -/

/-- A new name comes behind the others. -/
theorem setMember_of_notMem (h : name ∉ found.map (·.1)) (value : Json) :
    setMember name value found = found ++ [(name, value)] := by
  induction found with
  | nil => rfl
  | cons member found ih =>
    rw [List.map_cons, List.mem_cons, not_or] at h
    rw [setMember, if_neg (Ne.symm h.1), ih h.2, List.cons_append]

/-- Members on lines of their own begin with a quote. -/
theorem exists_separated_members (member : String × Json) (members : List (String × Json)) :
    ∃ cs, separated indent depth ((member :: members).map (renderMember indent depth)) =
      '"' :: cs := by
  obtain ⟨more, hmore⟩ := @exists_separated_cons indent depth (renderMember indent depth member)
    (members.map (renderMember indent depth))
  rw [List.map_cons, hmore, renderMember, List.append_assoc, renderString_append]
  exact ⟨_, rfl⟩

/-- What is read behind a member. -/
def readBehind (fuel : Nat) (found : List (String × Json)) (rest : List Char) :
    Except ReadFault (List (String × Json) × List Char) :=
  match skipSpace rest with
  | ',' :: rest => readMembers fuel found (skipSpace rest)
  | '\x7d' :: rest => .ok (found, rest)
  | _ => .error .malformed

/-- A member is read back, with what the text behind it asks for. -/
theorem readMembers_renderMember {member : String × Json} (hplain : member.2.IsPlain)
    (hvalue : ReadsBack member.2) (hfuel : (renderMember indent depth member).length ≤ fuel)
    (rest : List Char) : readMembers (fuel + 1) found (renderMember indent depth member ++ rest) =
      readBehind fuel (setMember member.1 member.2 found) rest := by
  rw [renderMember, List.length_append] at hfuel
  simp only [List.length_cons] at hfuel
  have hread := hvalue indent depth fuel rest (by omega)
  rw [renderMember, List.append_assoc, renderString_append, readMembers, readString_renderString]
  simp only [List.cons_append, skipSpace_cons (show isSpace ':' = false by decide)]
  have hblank : skipSpace (' ' :: (renderAt indent depth member.2 ++ rest)) =
      renderAt indent depth member.2 ++ rest := by
    rw [skipSpace, List.dropWhile_cons_of_pos (by decide), ← skipSpace, hplain.skipSpace_renderAt]
  rw [hblank, hread]
  rfl

/-- Members with new names are read back up to the closing bracket. -/
theorem readMembers_separated (hne : members ≠ [])
    (hnew : ((found ++ members).map (·.1)).Nodup)
    (hmembers : ∀ member ∈ members, member.2.IsPlain ∧ ReadsBack member.2)
    (hfuel : (separated indent depth (members.map (renderMember indent depth))).length < fuel) :
    readMembers fuel found (separated indent depth (members.map (renderMember indent depth)) ++
      (newLine indent outer ++ '\x7d' :: rest)) = .ok (found ++ members, rest) := by
  induction members generalizing fuel found with
  | nil => exact absurd rfl hne
  | cons member members ih =>
    obtain ⟨fuel, rfl⟩ := Nat.exists_eq_succ_of_ne_zero (Nat.ne_zero_of_lt hfuel)
    obtain ⟨⟨hplain, hvalue⟩, hothers⟩ := List.forall_mem_cons.mp hmembers
    have hname : member.1 ∉ found.map (·.1) := by
      rw [List.map_append, List.map_cons, List.nodup_append] at hnew
      exact fun hmem => hnew.2.2 _ hmem _ List.mem_cons_self rfl
    cases members with
    | nil =>
      rw [List.map_cons, List.map_nil, separated_singleton] at hfuel ⊢
      rw [readMembers_renderMember hplain hvalue (Nat.le_of_lt_succ hfuel), readBehind,
        skipSpace_newLine, skipSpace_cons (by decide), setMember_of_notMem hname]
      rfl
    | cons next members =>
      rw [List.map_cons, List.map_cons, separated_cons_cons, ← List.map_cons] at hfuel ⊢
      simp only [List.length_append, List.length_cons] at hfuel
      have hrest : ((found ++ [member] ++ next :: members).map (·.1)).Nodup := by
        rwa [List.append_assoc]
      have hread := @ih (found ++ [member]) fuel (List.cons_ne_nil _ _) hrest hothers (by omega)
      obtain ⟨cs, hcs⟩ := @exists_separated_members indent depth next members
      rw [List.append_assoc, readMembers_renderMember hplain hvalue (by omega), List.cons_append,
        readBehind, skipSpace_cons (by decide), setMember_of_notMem hname]
      rw [hcs, List.cons_append] at hread
      rw [hcs, List.append_assoc]
      change readMembers fuel (found ++ [member]) (skipSpace (newLine indent depth ++ _)) = _
      rw [skipSpace_newLine, List.cons_append, skipSpace_cons (by decide), hread, List.append_assoc]
      rfl

/-- An object is read back if its members are and no name comes twice. -/
theorem readsBack_object (hnames : (members.map (·.1)).Nodup)
    (hmembers : ∀ member ∈ members, member.2.IsPlain ∧ ReadsBack member.2) :
    ReadsBack (.object members) := by
  refine readsBack_of_succ (.object hnames fun member hmember => (hmembers member hmember).1)
    fun indent depth fuel rest hfuel => ?_
  rw [renderAt, renderMembers_eq_map] at hfuel ⊢
  cases members with
  | nil => rfl
  | cons member members =>
    have hne : (member :: members).map (renderMember indent (depth + 1)) ≠ [] :=
      List.cons_ne_nil _ _
    have hread := @readMembers_separated _ [] indent (depth + 1) depth fuel rest
      (List.cons_ne_nil _ _) hnames hmembers (length_separated_lt hne hfuel)
    obtain ⟨cs, hcs⟩ := @exists_separated_members indent (depth + 1) member members
    rw [hcs, List.cons_append] at hread
    rw [bracketed_append _ _ hne, hcs, List.cons_append, readValue_object]
    · rw [skipSpace_newLine, skipSpace_cons (by decide), hread]
      rfl
    · rw [skipSpace_newLine, skipSpace_cons (by decide)]
      exact fun more heq => absurd (List.cons.inj heq).1 (by decide)

/-! ## Whole documents -/

/-- A plain document is read back in front of any other text. -/
theorem IsPlain.readsBack (h : document.IsPlain) : ReadsBack document := by
  induction h with
  | null => exact readsBack_null
  | bool b => exact readsBack_bool b
  | string s => exact readsBack_string s
  | array hitems ih => exact readsBack_array fun item hitem => ⟨hitems item hitem, ih item hitem⟩
  | object hnames hmembers ih =>
    exact readsBack_object hnames fun member hmember =>
      ⟨hmembers member hmember, ih member hmember⟩

/-- A plain document is read back from its text, at every indentation. -/
theorem IsPlain.read_render (h : document.IsPlain) (indent : Nat) :
    read (document.render indent) = .ok document := by
  have hread := h.readsBack indent 0 (2 * (renderAt indent 0 document).length + 2) [] (by omega)
  have hblank := h.skipSpace_renderAt indent 0 []
  rw [List.append_nil] at hread hblank
  simp only [read, render, String.toList_ofList, hblank, hread]
  rfl

end FlatCrate.Json
