import FlatCrate.Proofs.Flatten.Stop

/-!
# What a larger budget changes

The budget of a crate root decides which of its declarations are expanded and nothing else: they are
the first ones, as many as the budget allows. So a run with a smaller budget is the same up to the
first declaration that it does not expand, and behind that one it can meet no error of splicing any
more.
-/

namespace FlatCrate

open Expansion (sourceOf?)
open Source (ScanState scanLines)
open Text (sourceLines)

variable {tree : FileTree} {active : List Location} {file : Path} {state : ScanState}
  {budget larger : Budget} {lines : List String} {run : Expansion}

/-- Lines that are complete with some budget are complete with every smaller one. -/
theorem Yields.exists_isComplete (h : Yields tree active (.lines file state larger lines) run)
    (hcomplete : run.isComplete = true) (hwithin : budget.IsWithin larger) :
    ∃ fewer, Yields tree active (.lines file state budget lines) fewer ∧
      fewer.isComplete = true := by
  induction lines generalizing state budget larger run with
  | nil => exact ⟨.finished, .finished, rfl⟩
  | cons line lines ih =>
    cases h with
    | copied hscan hrest =>
      obtain ⟨fewer, hfewer, hdone⟩ := ih hrest hcomplete hwithin
      exact ⟨_, .copied hscan hfewer, hdone⟩
    | kept hscan hspend hrest =>
      cases hsmaller : budget.spend? with
      | some left =>
        obtain ⟨more, hmore, -⟩ := hwithin.spend? hsmaller
        simp [hspend] at hmore
      | none =>
        obtain ⟨fewer, hfewer, hdone⟩ := ih hrest hcomplete hwithin
        exact ⟨_, .kept hscan hsmaller hfewer, hdone⟩
    | spliced hscan hspend htarget hbody hbodyDone hrest =>
      cases hsmaller : budget.spend? with
      | some left =>
        obtain ⟨more, hmore, hleft⟩ := hwithin.spend? hsmaller
        obtain rfl := Option.some.inj (hspend.symm.trans hmore)
        obtain ⟨fewer, hfewer, hdone⟩ := ih hrest hcomplete hleft
        exact ⟨_, .spliced hscan hsmaller htarget hbody hbodyDone hfewer, hdone⟩
      | none =>
        obtain ⟨fewer, hfewer, hdone⟩ :=
          ih hrest hcomplete (Budget.isWithin_of_spend?_none hsmaller _)
        exact ⟨_, .kept hscan hsmaller hfewer, hdone⟩
    | unsupported _ => simp [Expansion.isComplete] at hcomplete
    | refused _ _ _ => simp [Expansion.isComplete] at hcomplete
    | broken _ _ _ _ _ => simp [Expansion.isComplete] at hcomplete

/-- Once the budget has ended, no error of splicing is met. -/
theorem Yields.error?_ne_splice (h : Yields tree active (.lines file state budget lines) run)
    (hspend : budget.spend? = none) (e : SpliceError) : run.error? file ≠ some (.splice e) := by
  induction lines generalizing state run with
  | nil =>
    cases h
    simp [Expansion.error?]
  | cons line lines ih =>
    cases h with
    | unsupported _ => simp [Expansion.error?]
    | copied _ hrest => simpa only [Expansion.error?] using ih hrest
    | kept _ _ hrest => simpa only [Expansion.error?] using ih hrest
    | refused _ hsome _ => simp [hspend] at hsome
    | spliced _ hsome _ _ _ _ => simp [hspend] at hsome
    | broken _ hsome _ _ _ => simp [hspend] at hsome

/-- Lines that end with an error of splicing end with it for every larger budget. -/
theorem Yields.exists_error? (h : Yields tree active (.lines file state budget lines) run)
    {e : SpliceError} (herror : run.error? file = some (.splice e))
    (hwithin : budget.IsWithin larger) :
    ∃ longer, Yields tree active (.lines file state larger lines) longer ∧
      longer.error? file = some (.splice e) := by
  induction lines generalizing state budget larger run with
  | nil =>
    cases h
    simp [Expansion.error?] at herror
  | cons line lines ih =>
    cases h with
    | unsupported _ => simp [Expansion.error?] at herror
    | copied hscan hrest =>
      obtain ⟨longer, hlonger, hsame⟩ := ih hrest herror hwithin
      exact ⟨_, .copied hscan hlonger, hsame⟩
    | kept _ hspend hrest => exact absurd herror (hrest.error?_ne_splice hspend e)
    | refused hscan hspend htarget =>
      obtain ⟨more, hmore, -⟩ := hwithin.spend? hspend
      exact ⟨_, .refused hscan hmore htarget, herror⟩
    | spliced hscan hspend htarget hbody hdone hrest =>
      obtain ⟨more, hmore, hleft⟩ := hwithin.spend? hspend
      obtain ⟨longer, hlonger, hsame⟩ := ih hrest herror hleft
      exact ⟨_, .spliced hscan hmore htarget hbody hdone hlonger, hsame⟩
    | broken hscan hspend htarget hbody hbroken =>
      obtain ⟨more, hmore, -⟩ := hwithin.spend? hspend
      exact ⟨_, .broken hscan hmore htarget hbody hbroken, herror⟩

/-! ## Crate roots -/

variable {root : Path}

/-- A crate that can be flattened with some budget can be flattened with every smaller one. -/
theorem exists_flatten_of_isWithin (h : ∃ text, flatten tree root larger = .ok text)
    (hwithin : budget.IsWithin larger) : ∃ text, flatten tree root budget = .ok text := by
  obtain ⟨text, htext⟩ := h
  obtain ⟨hcomplete, -⟩ := flatten_eq_ok_iff.mp htext
  obtain ⟨source, location, hsource, hlocation, hlines⟩ :=
    (yields_ofRoot tree root larger).exists_lines hcomplete
  obtain ⟨fewer, hfewer, hdone⟩ := hlines.exists_isComplete hcomplete hwithin
  have hroot : Yields tree [] (.file root budget) fewer := .read hsource hlocation hfewer
  exact ⟨fewer.text, hroot.flatten_eq_ok hdone⟩

/-- A crate on which flattening ends with an error of splicing ends it so for every larger
budget. -/
theorem flatten_eq_error_of_isWithin {e : SpliceError}
    (h : flatten tree root budget = .error (.splice e)) (hwithin : budget.IsWithin larger) :
    flatten tree root larger = .error (.splice e) := by
  rw [flatten_eq_error_iff] at h ⊢
  have hroot := yields_ofRoot tree root budget
  generalize Expansion.ofRoot tree root budget = run at hroot h
  cases hroot with
  | unreadable hsource =>
    rw [← Yields.unique (.unreadable hsource) (yields_ofRoot tree root larger), ← h]
  | read hsource hlocation hlines =>
    obtain ⟨longer, hlonger, hsame⟩ := hlines.exists_error? h hwithin
    rw [← Yields.unique (.read hsource hlocation hlonger) (yields_ofRoot tree root larger), hsame]

/-- What a budget decides. With a number that is not negative, exactly the first declarations of the
root are expanded, as many as the number says, and the lines of the others are copied; with a
negative number all of them are expanded. Whatever can be flattened with some budget can be
flattened with a smaller one, and an error of splicing is the same for every larger one. -/
theorem flatten_budget_law (tree : FileTree) (root : Path) :
    (∀ (budget : Int) (text : String), flatten tree root (.ofInt budget) = .ok text →
      ∃ source last found expanded chunks, sourceOf? tree root = some source ∧
        scanLines .idle (sourceLines source) = .ok (last, found) ∧
        (0 ≤ budget → Budget.IsFirst budget.toNat found expanded) ∧
        (budget < 0 → expanded = found) ∧
        List.Forall₂ (fun entry chunk => IsChunk tree root entry.1 entry.2 chunk)
          ((sourceLines source).zip expanded) chunks ∧
        text = String.join chunks) ∧
    ∀ budget larger : Int, 0 ≤ budget → budget ≤ larger ∨ larger < 0 →
      ((∃ text, flatten tree root (.ofInt larger) = .ok text) →
        ∃ text, flatten tree root (.ofInt budget) = .ok text) ∧
      ∀ e : SpliceError, flatten tree root (.ofInt budget) = .error (.splice e) →
        flatten tree root (.ofInt larger) = .error (.splice e) := by
  refine ⟨fun budget text h => ?_, fun budget larger hbudget hlarger => ?_⟩
  · obtain ⟨source, last, found, chunks, hsource, hscan, htext, -, hchunks⟩ :=
      flatten_eq_join_chunks h
    refine ⟨source, last, found, _, chunks, hsource, hscan, fun hbudget => ?_, fun hbudget => ?_,
      hchunks, htext⟩
    · obtain ⟨count, rfl⟩ := Int.eq_ofNat_of_zero_le hbudget
      exact Budget.isFirst_grant count found
    · obtain ⟨count, rfl⟩ := Int.eq_negSucc_of_lt_zero hbudget
      exact Budget.grant_unlimited found
  · have hwithin := Budget.isWithin_ofInt hbudget hlarger
    exact ⟨fun h => exists_flatten_of_isWithin h hwithin,
      fun e h => flatten_eq_error_of_isWithin h hwithin⟩

/-- A root whose third module has no file. -/
def partialTree : FileTree where
  workDir := []
  entries := [(["lib.rs"], .file "mod a;\nmod b;\nmod c;\n".toUTF8),
    (["a.rs"], .file "mod d;\n".toUTF8), (["a"], .directory), (["d.rs", "a"], .file "".toUTF8),
    (["b.rs"], .file "".toUTF8)]

/-- Two declarations can be expanded, a third one cannot; the declaration inside of the first module
does not count. -/
theorem flatten_partialTree :
    let root : Path := ⟨.relative, ["lib.rs"]⟩
    let error := FlattenError.splice ⟨.unresolved, "c/mod.rs", ["lib.rs"]⟩
    flatten partialTree root (.ofInt 2) =
      .ok "mod a \x7b\nmod d \x7b\n\x7d\n\x7d\nmod b \x7b\n\x7d\nmod c;\n" ∧
    (∃ text, flatten partialTree root (.ofInt 1) = .ok text) ∧
    flatten partialTree root (.ofInt 3) = .error error ∧
    flatten partialTree root (.ofInt (-1)) = .error error ∧
    ∃ source last found expanded chunks, sourceOf? partialTree root = some source ∧
      scanLines .idle (sourceLines source) = .ok (last, found) ∧
      Budget.IsFirst 2 found expanded ∧
      List.Forall₂ (fun entry chunk => IsChunk partialTree root entry.1 entry.2 chunk)
        ((sourceLines source).zip expanded) chunks := by
  intro root error
  have htwo : flatten partialTree root (.ofInt 2) =
      .ok "mod a \x7b\nmod d \x7b\n\x7d\n\x7d\nmod b \x7b\n\x7d\nmod c;\n" :=
    flatten_eq_ok_iff.mpr ⟨by decide +kernel, by decide +kernel⟩
  have hthree : flatten partialTree root (.ofInt 3) = .error error :=
    flatten_eq_error_iff.mpr (by decide +kernel)
  obtain ⟨hchunks, hlarger⟩ := flatten_budget_law partialTree root
  obtain ⟨source, last, found, expanded, chunks, hsource, hscan, hfirst, -, hchunks, -⟩ :=
    hchunks 2 _ htwo
  refine ⟨htwo, (hlarger 1 2 (by decide) (by decide)).1 ⟨_, htwo⟩, hthree,
    (hlarger 3 (-1) (by decide) (by decide)).2 _ hthree, source, last, found, expanded, chunks,
    hsource, hscan, hfirst (by decide), hchunks⟩

end FlatCrate
