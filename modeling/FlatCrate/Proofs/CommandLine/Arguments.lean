import FlatCrate.CommandLine.Arguments
import FlatCrate.Proofs.Settings
import Mathlib.Tactic.SplitIfs

/-!
# What the command line can give

A number on the command line has so few digits that it can be shown. Every option leaves the numbers
of the others alone, so this holds of the budget however the command line goes on.
-/

namespace FlatCrate

namespace Text

variable {base : Nat} {cs : List Char} {digits : List Nat}

/-- A digit is less than its base. -/
theorem lt_of_digit? {c : Char} {digit : Nat} (h : digit? base c = some digit) : digit < base := by
  rw [digit?, Option.filter_eq_some_iff] at h
  exact of_decide_eq_true h.2

/-- All digits of a text are less than their base. -/
theorem lt_of_digits? (h : digits? base cs = some digits) : ∀ digit ∈ digits, digit < base := by
  induction cs using digits?.induct generalizing digits with
  | case1 => simp [digits?] at h
  | case2 c =>
    obtain ⟨digit, hdigit, rfl⟩ := Option.map_eq_some_iff.mp h
    exact List.forall_mem_singleton.mpr (lt_of_digit? hdigit)
  | case3 c rest ih =>
    simp only [digits?, bind, Option.bind_eq_some_iff] at h
    obtain ⟨digit, hdigit, others, hothers, h⟩ := h
    obtain rfl := Option.some.inj h
    exact List.forall_mem_cons.mpr ⟨lt_of_digit? hdigit, ih hothers⟩
  | case4 c rest hne hother ih =>
    rw [digits?] at h
    · simp only [bind, Option.bind_eq_some_iff] at h
      obtain ⟨digit, hdigit, others, hothers, h⟩ := h
      obtain rfl := Option.some.inj h
      exact List.forall_mem_cons.mpr ⟨lt_of_digit? hdigit, ih hothers⟩
    · exact hne
    · exact hother

/-- Digits denote a number below the power of their base. -/
theorem ofDigits_lt (h : ∀ digit ∈ digits, digit < base) :
    ofDigits base digits < Nat.pow base digits.length := by
  -- the number that the digits in front denote is generalised
  suffices ∀ front : Nat, digits.foldl (fun n digit => n * base + digit) front <
      (front + 1) * Nat.pow base digits.length by
    simpa [ofDigits] using this 0
  intro front
  induction digits generalizing front with
  | nil => exact Nat.lt_succ_of_le (Nat.le_of_eq (Nat.mul_one _).symm)
  | cons digit digits ih =>
    obtain ⟨hdigit, hdigits⟩ := List.forall_mem_cons.mp h
    have hfront : front * base + digit + 1 ≤ (front + 1) * base := by
      rw [Nat.add_mul, Nat.one_mul]
      omega
    calc (digit :: digits).foldl (fun n digit => n * base + digit) front
      _ < (front * base + digit + 1) * Nat.pow base digits.length := ih hdigits _
      _ ≤ (front + 1) * base * Nat.pow base digits.length := Nat.mul_le_mul_right _ hfront
      _ = (front + 1) * Nat.pow base (digit :: digits).length := by
        rw [List.length_cons, Nat.pow_eq, Nat.pow_eq, Nat.pow_succ', Nat.mul_assoc]

/-- A number has no more digits than it is given. -/
theorem ofDigits_lt_of_length_le {limit : Nat} (h : ∀ digit ∈ digits, digit < base)
    (hbase : 0 < base) (hlength : digits.length ≤ limit) :
    ofDigits base digits < Nat.pow base limit :=
  Nat.lt_of_lt_of_le (ofDigits_lt h) (Nat.pow_le_pow_right hbase hlength)

/-- The bound is the one for numbers that are shown. -/
theorem isShowable_of_lt {limit : Nat} (hlimit : limit = maxDecimalDigits) {n : Int}
    (h : n.natAbs < Nat.pow 10 limit) : Value.isShowable n = true := by
  rw [maxDecimalDigits] at hlimit
  rw [Value.isShowable, ← hlimit]
  exact decide_eq_true h

/-- A number that has been read has at most 4300 digits. -/
theorem natural?_lt {n : Nat} (h : natural? 10 cs = some n) : n < Nat.pow 10 maxDecimalDigits := by
  simp only [natural?, bind, Option.bind_eq_some_iff] at h
  obtain ⟨digits, hdigits, h⟩ := h
  split_ifs at h with hmany
  obtain rfl := Option.some.inj h
  rw [true_and, Nat.not_lt] at hmany
  -- the power is too large to be evaluated
  generalize maxDecimalDigits = limit at hmany ⊢
  exact ofDigits_lt_of_length_le (lt_of_digits? hdigits) (by decide) hmany

/-- A decimal integer that has been read can be shown. -/
theorem isShowable_of_integer? {n : Int} (h : integer? 10 cs = some n) :
    Value.isShowable n = true := by
  obtain ⟨rest, m, hm, habs⟩ : ∃ rest m, natural? 10 rest = some m ∧ n.natAbs = m := by
    rw [integer?] at h
    split at h <;> simp only [bind, pure, Option.map_eq_some_iff, Option.bind_eq_some_iff] at h
    · obtain ⟨_, ⟨m, hm, hn⟩, rfl⟩ := h
      exact ⟨_, m, hm, by simp [← Option.some.inj hn]⟩
    · obtain ⟨m, hm, rfl⟩ := h
      exact ⟨_, m, hm, rfl⟩
    · obtain ⟨m, hm, rfl⟩ := h
      exact ⟨_, m, hm, rfl⟩
  exact isShowable_of_lt rfl (habs ▸ natural?_lt hm)

end Text

namespace CommandLine.Arguments

variable {arguments after : Arguments}

/-- A number that is given as the budget can be shown. -/
def HasShowableBudget (arguments : Arguments) : Prop :=
  ∀ n, arguments.budget = some (.value n) → Value.isShowable n = true

/-- An option without an argument leaves the budget alone. -/
theorem budget_setFlag {opt : Opt} (h : arguments.setFlag opt = .ok after) :
    after.budget = arguments.budget := by
  cases opt <;> grind [setFlag]

/-- Several options without arguments leave the budget alone. -/
theorem budget_foldlM_setFlag {opts : List Opt} (h : opts.foldlM setFlag arguments = .ok after) :
    after.budget = arguments.budget := by
  induction opts generalizing arguments with
  | nil => exact congrArg budget (Except.ok.inj h).symm
  | cons opt opts ih =>
    rw [List.foldlM_cons] at h
    obtain ⟨next, hflag, h⟩ := Settings.exists_of_bind_eq_ok h
    exact (ih h).trans (budget_setFlag hflag)

/-- An option with an argument leaves the budget alone, unless a whole number is read from it. -/
theorem budget_setGiven {opt : Opt} {given : Given String}
    (h : arguments.setGiven opt given = .ok after) :
    after.budget = arguments.budget ∨
      ∃ number, given.read (readInteger opt) = .ok number ∧ after.budget = some number := by
  cases opt <;> simp only [setGiven, bind, Except.bind, pure, Except.pure] at h <;> grind

/-- A whole number that an option is given can be shown. -/
theorem readInteger_eq_ok {opt : Opt} {text : String} {n : Int} (h : readInteger opt text = .ok n) :
    Value.isShowable n = true := by
  rw [readInteger] at h
  split at h
  · next m hm => exact Except.ok.inj h ▸ Text.isShowable_of_integer? hm
  · simp at h

namespace HasShowableBudget

/-- Whether the budget can be shown depends on the budget only. -/
theorem of_budget_eq (h : arguments.HasShowableBudget) (heq : after.budget = arguments.budget) :
    after.HasShowableBudget := by
  rwa [HasShowableBudget, heq]

/-- An option with an argument leaves a budget that can be shown. -/
theorem setGiven {opt : Opt} {given : Given String} (h : arguments.HasShowableBudget)
    (hset : arguments.setGiven opt given = .ok after) : after.HasShowableBudget := by
  obtain heq | ⟨number, hread, hbudget⟩ := budget_setGiven hset
  · exact h.of_budget_eq heq
  · rintro n hn
    obtain rfl := Option.some.inj (hbudget.symm.trans hn)
    cases given with
    | nothing => simp [Given.read] at hread
    | value text =>
      cases htext : readInteger opt text with
      | error fault => simp [Given.read, htext, Except.map] at hread
      | ok m =>
        simp only [Given.read, htext, Except.map, Except.ok.injEq, Given.value.injEq] at hread
        exact hread ▸ readInteger_eq_ok htext

/-- An option with its values leaves a budget that can be shown. -/
theorem setValues {opt : Opt} {values : List String} (h : arguments.HasShowableBudget)
    (hset : arguments.setValues opt values = .ok after) : after.HasShowableBudget := by
  rw [Arguments.setValues.eq_def] at hset
  split at hset
  · exact Except.ok.inj hset ▸ h
  · exact h.setGiven hset
  · exact h.setGiven hset

/-- Taking the words one after the other keeps this. -/
theorem take {extras rest : List String} {words : List (String × Word)}
    (h : arguments.HasShowableBudget)
    (htake : arguments.take extras words = .ok (after, rest)) : after.HasShowableBudget := by
  fun_induction Arguments.take with
  | case1 => exact (Prod.mk.inj (Except.ok.inj htake)).1 ▸ h
  | case2 arguments extras word opt isShort attached following ih =>
    obtain ⟨asked, -, htake⟩ := Settings.exists_of_bind_eq_ok htake
    obtain ⟨⟨values, count⟩, -, htake⟩ := Settings.exists_of_bind_eq_ok htake
    obtain ⟨flagged, hflags, htake⟩ := Settings.exists_of_bind_eq_ok htake
    have hflagged := h.of_budget_eq (budget_foldlM_setFlag hflags)
    cases values with
    | none => exact ih count flagged hflagged htake
    | some values =>
      obtain ⟨next, hset, htake⟩ := Settings.exists_of_bind_eq_ok htake
      exact ih count next (hflagged.setValues hset) htake
  | case3 arguments extras word _ following _ ih => exact ih h htake

/-- It holds of every command line that is accepted. -/
theorem of_parse {words : List String} (h : parse words = .ok arguments) :
    arguments.HasShowableBudget := by
  obtain ⟨classified, -, h⟩ := Settings.exists_of_bind_eq_ok h
  obtain ⟨⟨after, extras⟩, htake, h⟩ := Settings.exists_of_bind_eq_ok h
  have hnone : ({} : Arguments).HasShowableBudget := fun _ hn => by simp at hn
  dsimp only at h
  split_ifs at h
  exact Except.ok.inj h ▸ hnone.take htake

end HasShowableBudget

end CommandLine.Arguments

end FlatCrate
