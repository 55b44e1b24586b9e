import FlatCrate.Proofs.Pack.Built

/-!
# Runs that break off

Some runs end with a breakdown instead of a fault that can be reported. Asking the compiler breaks
off, or no message can name it. A path that would have to be asked for has a zero in it: that of a
file to be flattened, that of the output directory, or that of an output. The manifest counts as true
and is no text, or it is the text of a path without a name, which is noticed only when everything
before it has been staged. The list is complete for the runs that are modelled here; these read only
texts in which no half of a surrogate pair is alone.
-/

namespace FlatCrate.Pack

variable {tree after : FileTree} {settings : Settings} {answer : Toolchain.Answer}
  {medium : Medium} {crates : List PackedCrate} {outputs : List Output}
  {before : List (Path × Path)} {breakdown : Breakdown}

/-- Staging breaks off exactly at the first output without a staging name. -/
theorem stage_eq_broken_iff :
    stage tree before outputs medium = (after, .error (.broken breakdown)) ↔
      breakdown = .impossibleValue ∧ ∃ done output rest staged,
        outputs = done ++ output :: rest ∧
        stage tree before done medium = (after, .ok staged) ∧ stagingPath? output.1 = none := by
  rw [stage_eq_error_iff]
  constructor
  · rintro ⟨done, output, rest, now, staged, rfl, hdone, hstuck⟩
    cases hstuck with
    | nameless hnone => exact ⟨rfl, done, _, rest, staged, rfl, hdone, hnone⟩
  · rintro ⟨rfl, done, output, rest, staged, rfl, hdone, hnone⟩
    exact ⟨done, output, rest, after, staged, rfl, hdone, .nameless hnone⟩

/-- All crates of some settings have been built. -/
def IsBuilt (tree : FileTree) (settings : Settings) (answer : Toolchain.Answer)
    (crates : List PackedCrate) : Prop :=
  ∃ path, (sysroot settings answer).result = .ok path ∧
    (PackedCrate.buildAll tree settings path settings.components).result = .ok crates

/-- When all crates have been built, the fault of a run is that of writing them. -/
theorem IsBuilt.fault_run_eq (h : IsBuilt tree settings answer crates) (medium : Medium) :
    (run tree settings answer medium).1.fault = (writeAll tree settings crates medium).fault := by
  obtain ⟨path, hsysroot, hcrates⟩ := h
  exact (run_eq_writeAll medium hsysroot hcrates).2.2

/-- How packing breaks off. -/
inductive BreaksOff (tree : FileTree) (settings : Settings) (answer : Toolchain.Answer)
    (medium : Medium) : Breakdown → Prop
  /-- Asking the compiler where the toolchain is breaks off. -/
  | compiler {breakdown : Breakdown} : settings.sysroot = none → answer = .broken breakdown →
      BreaksOff tree settings answer medium breakdown
  /-- The compiler does not tell where the toolchain is, and no message can name it. -/
  | unnamed {fault : Toolchain.Fault} : settings.sysroot = none →
      Toolchain.place answer = .error fault → (∀ breakdown, answer ≠ .broken breakdown) →
      settings.compiler.text? = none → BreaksOff tree settings answer medium .impossibleValue
  /-- A file that is to be flattened has a path that cannot be asked for. -/
  | source {path : Path} {e : FlattenError} : (sysroot settings answer).result = .ok path →
      (PackedCrate.buildAll tree settings path settings.components).result = .error e →
      e.namesZero = true → BreaksOff tree settings answer medium .impossibleValue
  /-- All crates have been built, and the manifest is no text. -/
  | manifest {crates : List PackedCrate} : IsBuilt tree settings answer crates →
      settings.manifest.isTruthy = true → (∀ name, settings.manifest ≠ .string name) →
      BreaksOff tree settings answer medium .wrongKind
  /-- All crates have been built, and the path of the output directory cannot be asked for. -/
  | directory {crates : List PackedCrate} : IsBuilt tree settings answer crates →
      (settings.manifest.isTruthy = true → ∃ name, settings.manifest = .string name) →
      settings.outputDir.holdsZero = true → BreaksOff tree settings answer medium .impossibleValue
  /-- The outputs before one of them have been staged, and that one has no staging name. -/
  | unstageable {crates : List PackedCrate} {done rest : List Output} {output : Output}
      {staged : List (Path × Path)} {after : FileTree} : IsBuilt tree settings answer crates →
      (settings.manifest.isTruthy = true → ∃ name, settings.manifest = .string name) →
      settings.outputDir.holdsZero = false →
      (tree.makeDirectories settings.outputDir).error = none →
      outputsOf settings crates = done ++ output :: rest →
      stage (madeTree tree settings) [] done medium = (after, .ok staged) →
      stagingPath? output.1 = none → BreaksOff tree settings answer medium .impossibleValue

/-- A compiler that is not the name of a program always breaks packing off. -/
theorem breaksOff_of_runBreakdown? (hnone : settings.sysroot = none)
    (hpossible : answer.IsPossible settings.compiler)
    (hbreak : settings.compiler.runBreakdown? = some breakdown) :
    BreaksOff tree settings answer medium breakdown := by
  rw [Toolchain.Answer.IsPossible, hbreak] at hpossible
  exact .compiler hnone hpossible

/-- A fault of the toolchain breaks off by itself, or since no message can name the compiler. -/
theorem toolchainFault_eq_broken_iff {compiler : Value} {fault : Toolchain.Fault} :
    toolchainFault compiler fault = .broken breakdown ↔ fault = .broken breakdown ∨
      breakdown = .impossibleValue ∧ (∀ other, fault ≠ .broken other) ∧
        compiler.text? = none := by
  unfold toolchainFault
  generalize compiler.text? = name
  cases fault <;> cases name <;> simp [eq_comm]

/-- Asking for the toolchain breaks off if that of the compiler does, or no message can name it. -/
theorem sysroot_eq_broken_iff : (sysroot settings answer).result = .error (.broken breakdown) ↔
    settings.sysroot = none ∧ (answer = .broken breakdown ∨
      breakdown = .impossibleValue ∧ (∃ fault, Toolchain.place answer = .error fault) ∧
        (∀ other, answer ≠ .broken other) ∧ settings.compiler.text? = none) := by
  rw [sysroot]
  cases settings.sysroot with
  | some path => simp
  | none =>
    cases hplace : Toolchain.place answer with
    | ok place =>
      have hplain : answer ≠ .broken breakdown := by
        rintro rfl
        simp [Toolchain.place] at hplace
      simp [hplain]
    | error fault =>
      have hsame (other : Breakdown) : fault = .broken other ↔ answer = .broken other := by
        rw [← Toolchain.place_eq_broken_iff, hplace, Except.error.injEq]
      simp only [Except.error.injEq, toolchainFault_eq_broken_iff, hsame, true_and, exists_eq',
        ne_eq]

/-- A crate that cannot be flattened breaks packing off if its fault names a path with a zero. -/
theorem flattenFault_eq_broken_iff {e : FlattenError} :
    flattenFault e = .broken breakdown ↔ e.namesZero = true ∧ breakdown = .impossibleValue := by
  rw [flattenFault]
  cases e.namesZero <;> simp [eq_comm]

/-- The manifest breaks packing off if it counts as true and is no text. -/
theorem manifestOutput_eq_broken_iff :
    manifestOutput settings crates = .error (.broken breakdown) ↔
      breakdown = .wrongKind ∧ settings.manifest.isTruthy = true ∧
        ∀ name, settings.manifest ≠ .string name := by
  rw [manifestOutput]
  cases htruthy : settings.manifest.isTruthy with
  | false => simp
  | true => cases settings.manifest <;> simp [eq_comm]

/-- Writing crates that have been built breaks off in the listed cases only. -/
theorem IsBuilt.breaksOff_of_writeAll (hbuilt : IsBuilt tree settings answer crates)
    (h : (writeAll tree settings crates medium).fault = some (.broken breakdown)) :
    BreaksOff tree settings answer medium breakdown := by
  cases hmanifest : manifestOutput settings crates with
  | error fault =>
    rw [writeAll, hmanifest, Option.some.injEq] at h
    subst h
    obtain ⟨rfl, htruthy, hkind⟩ := manifestOutput_eq_broken_iff.mp hmanifest
    exact .manifest hbuilt htruthy hkind
  | ok manifest =>
    have htext := (exists_manifestOutput_iff settings crates).mp ⟨manifest, hmanifest⟩
    rw [writeAll_eq hmanifest] at h
    cases hzero : settings.outputDir.holdsZero with
    | true =>
      simp only [hzero, if_true, Option.some.injEq, PackFault.broken.injEq] at h
      exact h ▸ .directory hbuilt htext hzero
    | false =>
      simp only [hzero, Bool.false_eq_true, if_false] at h
      cases hmade : (tree.makeDirectories settings.outputDir).error with
      | some e => simp [hmade] at h
      | none =>
        simp only [hmade, writeStaged] at h
        split at h
        · next after fault hstage =>
          rw [Option.some.injEq] at h
          subst h
          obtain ⟨rfl, done, output, rest, staged, houtputs, hdone, hpath⟩ :=
            stage_eq_broken_iff.mp hstage
          exact .unstageable hbuilt htext hzero hmade houtputs hdone hpath
        · next prepared staged hstage =>
          obtain ⟨-, -, -, -, -, ⟨-, hnone⟩ | ⟨_, _, _, _, -, -, hmove⟩⟩ :=
            moves_moveAll prepared staged
          · simp [hnone] at h
          · simp [hmove] at h

/-- A run breaks off in these cases only. -/
theorem fault_run_eq_broken_iff :
    (run tree settings answer medium).1.fault = some (.broken breakdown) ↔
      BreaksOff tree settings answer medium breakdown := by
  constructor
  · intro h
    cases hsysroot : (sysroot settings answer).result with
    | error fault =>
      simp only [run, hsysroot, Option.some.injEq] at h
      subst h
      obtain ⟨hnone, hanswer | ⟨rfl, ⟨fault, hplace⟩, hplain, hcompiler⟩⟩ :=
        sysroot_eq_broken_iff.mp hsysroot
      · exact .compiler hnone hanswer
      · exact .unnamed hnone hplace hplain hcompiler
    | ok path =>
      cases hcrates : (PackedCrate.buildAll tree settings path settings.components).result with
      | error e =>
        simp only [run, hsysroot, hcrates, Option.some.injEq] at h
        obtain ⟨hzero, rfl⟩ := flattenFault_eq_broken_iff.mp h
        exact .source hsysroot hcrates hzero
      | ok crates =>
        have hbuilt : IsBuilt tree settings answer crates := ⟨path, hsysroot, hcrates⟩
        rw [hbuilt.fault_run_eq] at h
        exact hbuilt.breaksOff_of_writeAll h
  · intro h
    cases h with
    | compiler hnone hanswer =>
      have hsysroot := sysroot_eq_broken_iff.mpr ⟨hnone, .inl hanswer⟩
      simp only [run, hsysroot]
    | unnamed hnone hplace hplain hcompiler =>
      have hsysroot :=
        sysroot_eq_broken_iff.mpr ⟨hnone, .inr ⟨rfl, ⟨_, hplace⟩, hplain, hcompiler⟩⟩
      simp only [run, hsysroot]
    | source hsysroot hcrates hzero =>
      simp only [run, hsysroot, hcrates, flattenFault_eq_broken_iff.mpr ⟨hzero, rfl⟩]
    | manifest hbuilt htruthy hkind =>
      rw [hbuilt.fault_run_eq, writeAll, manifestOutput_eq_broken_iff.mpr ⟨rfl, htruthy, hkind⟩]
    | @directory crates hbuilt htext hzero =>
      obtain ⟨manifest, hmanifest⟩ := (exists_manifestOutput_iff settings crates).mpr htext
      rw [hbuilt.fault_run_eq, writeAll_eq hmanifest, if_pos hzero]
    | @unstageable crates done rest output staged after hbuilt htext hzero hmade houtputs hdone
        hpath =>
      obtain ⟨manifest, hmanifest⟩ := (exists_manifestOutput_iff settings crates).mpr htext
      have hstage : stage (madeTree tree settings) [] (outputsOf settings crates) medium =
          (after, .error (.broken .impossibleValue)) :=
        stage_eq_broken_iff.mpr ⟨rfl, done, output, rest, staged, houtputs, hdone, hpath⟩
      rw [hbuilt.fault_run_eq, writeAll_eq hmanifest]
      simp only [hzero, Bool.false_eq_true, if_false, hmade, writeStaged, hstage]

end FlatCrate.Pack
