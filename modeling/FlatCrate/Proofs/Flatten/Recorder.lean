import FlatCrate.Proofs.Flatten.Composition
import FlatCrate.Proofs.Graph.Changes

/-!
# Recording is inert

Flattening knows of no graph: what is recorded is read off the finished expansion. Here a crate is
flattened and recorded in one go. Every file is claimed in the graph when it is entered, and what
happens in it is recorded only if it had not been claimed before, so the graph is asked all the
time. Still the flat text or the error and the log are those of flattening, for every graph and
without any, and the graph is the one that is read off the expansion. It has only grown.
-/

namespace FlatCrate

open Source (ScanState ModuleDecl)

/-- What has been logged so far, and the graph as it is. -/
structure Trail where
  log : List LogRecord
  graph : ModuleGraph

/-- The trail when more has been logged, and recorded in the graph if that is to be changed. -/
def Trail.follow (trail : Trail) (isOn : Bool) (log : List LogRecord)
    (step : ModuleGraph → ModuleGraph) : Trail where
  log := trail.log ++ log
  graph := if isOn then step trail.graph else trail.graph

/-- Following one step and then another is following both. -/
theorem Trail.follow_follow (trail : Trail) (isOn : Bool) (log more : List LogRecord)
    (step next : ModuleGraph → ModuleGraph) :
    (trail.follow isOn log step).follow isOn more next =
      trail.follow isOn (log ++ more) (next ∘ step) := by
  cases isOn <;> simp [follow]

/-- Following nothing changes nothing. -/
theorem Trail.follow_id (trail : Trail) (isOn : Bool) : trail.follow isOn [] id = trail := by
  cases isOn <;> simp [follow]

/-- Without records only the graph changes. -/
theorem Trail.follow_nil (trail : Trail) (isOn : Bool) (step : ModuleGraph → ModuleGraph) :
    trail.follow isOn [] step =
      { trail with graph := if isOn then step trail.graph else trail.graph } := by
  rw [follow, List.append_nil]

/-- Work that logs records, changes a graph, and may fail. -/
abbrev Recorder := ExceptT FlattenError (StateM Trail)

namespace Recorder

variable {α β : Type} {tree : FileTree} {active : List Location} {file : Path} {level : Nat}
  {isOn : Bool} {trail : Trail}

/-! ## Recording while flattening -/

/-- Logs some records. -/
def note (records : List LogRecord) : Recorder Unit :=
  modify fun trail => { trail with log := trail.log ++ records }

/-- Changes the graph, if it is to be changed. -/
def change (isOn : Bool) (step : ModuleGraph → ModuleGraph) : Recorder Unit :=
  if isOn then modify fun trail => { trail with graph := step trail.graph } else pure ()

/-- Claims a file, if the graph is to be changed, and tells whether it is the first to do so. -/
def claim (isOn : Bool) (file : Path) : Recorder Bool := do
  let trail ← get
  if isOn && !trail.graph.isClaimed file then
    set { trail with graph := trail.graph.claim file }
    return true
  else
    return false

/-- The flat lines of the lines of a file; `enter` gives those of the file of a module. -/
def ofLines (tree : FileTree) (active : List Location) (file : Path) (level : Nat) (isOn : Bool)
    (enter : Path → Recorder (List String)) :
    ScanState → Budget → List String → Recorder (List String)
  | _, _, [] => return []
  | state, budget, line :: rest =>
    match Source.scanLine state line.toList with
    | .error e => throw (.visibility e)
    | .ok (state, none) => do
      let behind ← ofLines tree active file level isOn enter state budget rest
      return line :: behind
    | .ok (state, some decl) =>
      match budget.spend? with
      | none => do
        note [Expansion.keptRecord file line]
        change isOn fun graph => graph.addUnexpanded file decl.name
        let behind ← ofLines tree active file level isOn enter state budget rest
        return line :: behind
      | some budget => do
        note (Expansion.foundRecords level decl line)
        match Expansion.target tree active file decl with
        | .error (fault, path) => throw (.splice ⟨fault, path.toString, [file.toString]⟩)
        | .ok child => do
          change isOn fun graph => graph.addModule file decl.name child
          let body ← tryCatch (enter child) fun e => throw (e.push file)
          let behind ← ofLines tree active file level isOn enter state budget rest
          return decl.header :: (body ++ Expansion.closingLine :: behind)

/-- The flat lines of a file inside some others, at most `depth` of them further in. -/
def ofFile (tree : FileTree) :
    Nat → List Location → Path → Nat → Bool → Budget → Recorder (List String)
  | 0, _, file, _, _, _ => throw (.splice ⟨.unreadable, file.toString, []⟩)
  | depth + 1, active, file, level, isOn, budget =>
    match Expansion.sourceOf? tree file, tree.realLocation file with
    | some source, some location => do
      let isFirst ← claim isOn file
      ofLines tree (location :: active) file level isFirst
        (fun child => ofFile tree depth (location :: active) child (level + 1) isFirst .ofChildren)
        .idle budget (Text.sourceLines source)
    | _, _ => throw (.splice ⟨.unreadable, file.toString, []⟩)

/-! ## One step at a time -/

/-- The result of some work and what it leaves behind. -/
def run (work : Recorder α) (trail : Trail) : Except FlattenError α × Trail :=
  StateT.run (ExceptT.run work) trail

/-- Work goes on behind work that gives a result. -/
theorem run_bind_of_ok {work : Recorder α} {next : α → Recorder β} {a : α} {later : Trail}
    (h : run work trail = (.ok a, later)) : run (work >>= next) trail = run (next a) later := by
  rw [run] at h
  simp only [run, ExceptT.run_bind, StateT.run_bind, h]
  rfl

/-- Work stops at the first error. -/
theorem run_bind_of_error {work : Recorder α} {next : α → Recorder β} {e : FlattenError}
    {later : Trail} (h : run work trail = (.error e, later)) :
    run (work >>= next) trail = (.error e, later) := by
  rw [run] at h
  simp only [run, ExceptT.run_bind, StateT.run_bind, h]
  rfl

/-- Work that gives a result is not handled. -/
theorem run_tryCatch_of_ok {work : Recorder α} {handler : FlattenError → Recorder α} {a : α}
    {later : Trail} (h : run work trail = (.ok a, later)) :
    run (tryCatch work handler) trail = (.ok a, later) := by
  rw [run] at h
  rw [run, ExceptT.run_tryCatch, StateT.run_bind, h]
  rfl

/-- An error is handled from the trail it leaves. -/
theorem run_tryCatch_of_error {work : Recorder α} {handler : FlattenError → Recorder α}
    {e : FlattenError} {later : Trail} (h : run work trail = (.error e, later)) :
    run (tryCatch work handler) trail = run (handler e) later := by
  rw [run] at h
  rw [run, ExceptT.run_tryCatch, StateT.run_bind, h]
  rfl

/-- Work whose result is only put into another form. -/
theorem run_bind_pure (work : Recorder α) (form : α → β) :
    run (work >>= fun a => pure (form a)) trail =
      ((run work trail).1.map form, (run work trail).2) := by
  cases hwork : run work trail with
  | mk result later =>
    cases result with
    | error e => exact run_bind_of_error hwork
    | ok a => exact run_bind_of_ok hwork

/-- Noting records adds them to the trail. -/
theorem run_note (isOn : Bool) (records : List LogRecord) :
    run (note records) trail = (.ok (), trail.follow isOn records id) := by
  cases isOn <;> rfl

/-- Changing the graph changes that only. -/
theorem run_change (step : ModuleGraph → ModuleGraph) :
    run (change isOn step) trail = (.ok (), trail.follow isOn [] step) := by
  rw [Trail.follow_nil]
  cases isOn <;> rfl

/-- Claiming a file tells whether it is claimed for the first time. -/
theorem run_claim (file : Path) : run (claim isOn file) trail =
    let isFirst := isOn && !trail.graph.isClaimed file
    (.ok isFirst, trail.follow isFirst [] (·.claim file)) := by
  have hget : run (get : Recorder Trail) trail = (.ok trail, trail) := rfl
  rw [claim, run_bind_of_ok hget]
  simp only [Trail.follow_nil]
  cases isOn && !trail.graph.isClaimed file <;> rfl

end Recorder

/-! ## What is read off the expansion -/

namespace Expansion

variable {tree : FileTree} {active : List Location} {file : Path} {expand : Path → Expansion}

/-- How a file ends: with its flat lines, or with the error that ends its expansion. -/
def outcome (file : Path) (expansion : Expansion) : Except FlattenError (List String) :=
  match expansion.error? file with
  | none => .ok expansion.lines
  | some e => .error e

/-- The outcome of a file is told by its error and its lines. -/
theorem outcome_eq_map {rest expansion : Expansion} (form : List String → List String)
    (herror : expansion.error? file = rest.error? file)
    (hlines : expansion.lines = form rest.lines) :
    expansion.outcome file = (rest.outcome file).map form := by
  rw [outcome, outcome, herror, hlines]
  cases rest.error? file <;> rfl

/-- The lines of a file that was read are never expanded to an unreadable file. -/
theorem isReadable_ofLines (state : ScanState) (budget : Budget) (lines : List String) :
    (ofLines tree active file expand state budget lines).isReadable = true := by
  fun_cases ofLines tree active file expand state budget lines <;> simp_all [isReadable]

/-- What ends with no error is complete, if this holds of the files of the modules. -/
theorem isComplete_ofLines
    (hexpand : ∀ child, (expand child).error? child = none → (expand child).isComplete = true)
    {state : ScanState} {budget : Budget} {lines : List String}
    (h : (ofLines tree active file expand state budget lines).error? file = none) :
    (ofLines tree active file expand state budget lines).isComplete = true := by
  fun_induction ofLines tree active file expand state budget lines with
  | case7 state budget line rest next decl _ left _ child _ body hbroken =>
    rw [error?, Option.map_eq_none_iff] at h
    exact absurd (hexpand child h) hbroken
  | _ => simp_all [error?, isComplete]

/-- A run without an error is complete. -/
theorem isComplete_ofFile {depth : Nat} {budget : Budget}
    (h : (ofFile tree depth active file budget).error? file = none) :
    (ofFile tree depth active file budget).isComplete = true := by
  induction depth generalizing active file budget with
  | zero => simp [ofFile, error?] at h
  | succ depth ih =>
    rw [ofFile] at h ⊢
    split at h
    · exact isComplete_ofLines (fun _ hchild => ih hchild) h
    · simp [error?] at h

end Expansion

namespace Recorder

variable {tree : FileTree} {active : List Location} {file child : Path} {level : Nat} {isOn : Bool}
  {trail : Trail} {work inside : Recorder (List String)} {rest body : Expansion}

/-- Work that gives the flat lines of a file, or its error, logs what its expansion logs, and
changes the graph. -/
def Does (work : Recorder (List String)) (isOn : Bool) (level : Nat) (file : Path)
    (expansion : Expansion) (record : ModuleGraph → ModuleGraph) : Prop :=
  ∀ trail, run work trail =
    (expansion.outcome file, trail.follow isOn (expansion.log file level) record)

namespace Does

/-- The end of a file is done by doing nothing. -/
theorem finished (isOn : Bool) (level : Nat) (file : Path) :
    Does (return []) isOn level file .finished (Expansion.finished.recordLines file) :=
  fun trail => congrArg (Prod.mk _) (trail.follow_id isOn).symm

/-- A visibility that is not supported is done by throwing the error. -/
theorem unsupported (isOn : Bool) (level : Nat) (file : Path)
    (e : Source.UnsupportedVisibility) :
    Does (throw (.visibility e)) isOn level file (.unsupported e)
      ((Expansion.unsupported e).recordLines file) :=
  fun trail => congrArg (Prod.mk _) (trail.follow_id isOn).symm

/-- A copied line is done by the work behind it, and the line in front. -/
theorem copied (h : Does work isOn level file rest (rest.recordLines file)) (line : String) :
    Does (do let behind ← work; return line :: behind) isOn level file (.copied line rest)
      ((Expansion.copied line rest).recordLines file) := by
  intro trail
  have houtcome : (Expansion.copied line rest).outcome file = (rest.outcome file).map (line :: ·) :=
    Expansion.outcome_eq_map _ rfl rfl
  rw [run_bind_pure, h, houtcome]
  rfl

/-- A declaration beyond the budget is done by noting it and the work behind it. -/
theorem kept (h : Does work isOn level file rest (rest.recordLines file)) (decl : ModuleDecl)
    (line : String) :
    Does (do
        note [Expansion.keptRecord file line]
        change isOn fun graph => graph.addUnexpanded file decl.name
        let behind ← work
        return line :: behind)
      isOn level file (.kept decl line rest)
      ((Expansion.kept decl line rest).recordLines file) := by
  intro trail
  have houtcome : (Expansion.kept decl line rest).outcome file =
      (rest.outcome file).map (line :: ·) :=
    Expansion.outcome_eq_map _ rfl rfl
  rw [run_bind_of_ok (run_note isOn _), run_bind_of_ok (run_change _), run_bind_pure, h, houtcome,
    Trail.follow_follow, Trail.follow_follow]
  rfl

/-- A declaration without a file is done by noting it and throwing the error. -/
theorem refused (isOn : Bool) (level : Nat) (file : Path) (decl : ModuleDecl) (line : String)
    (fault : SpliceFault) (path : Path) :
    Does (do
        note (Expansion.foundRecords level decl line)
        throw (.splice ⟨fault, path.toString, [file.toString]⟩))
      isOn level file (.refused decl line fault path)
      ((Expansion.refused decl line fault path).recordLines file) := by
  intro trail
  rw [run_bind_of_ok (run_note isOn _)]
  rfl

/-- The file of a module is entered, and the run goes on behind it. -/
theorem spliced (hbody : Does inside isOn (level + 1) child body (body.record child))
    (hdone : body.error? child = none)
    (h : Does work isOn level file rest (rest.recordLines file)) (decl : ModuleDecl)
    (line : String) :
    Does (do
        note (Expansion.foundRecords level decl line)
        change isOn fun graph => graph.addModule file decl.name child
        let body ← tryCatch inside fun e => throw (e.push file)
        let behind ← work
        return decl.header :: (body ++ Expansion.closingLine :: behind))
      isOn level file (.spliced decl line child body rest)
      ((Expansion.spliced decl line child body rest).recordLines file) := by
  intro trail
  have hentered (trail : Trail) : run inside trail = (.ok body.lines,
      trail.follow isOn (body.log child (level + 1)) (body.record child)) := by
    rw [hbody, Expansion.outcome, hdone]
  have houtcome : (Expansion.spliced decl line child body rest).outcome file =
      (rest.outcome file).map fun behind =>
        decl.header :: (body.lines ++ Expansion.closingLine :: behind) :=
    Expansion.outcome_eq_map _ rfl rfl
  rw [run_bind_of_ok (run_note isOn _), run_bind_of_ok (run_change _),
    run_bind_of_ok (run_tryCatch_of_ok (hentered _)), run_bind_pure, h, houtcome,
    Trail.follow_follow, Trail.follow_follow, Trail.follow_follow, List.nil_append]
  rfl

/-- The run ends in the file of a module. -/
theorem broken (hbody : Does inside isOn (level + 1) child body (body.record child))
    {e : FlattenError} (herror : body.error? child = some e)
    (behind : List String → Recorder (List String)) (decl : ModuleDecl) (line : String) :
    Does (do
        note (Expansion.foundRecords level decl line)
        change isOn fun graph => graph.addModule file decl.name child
        let body ← tryCatch inside fun e => throw (e.push file)
        behind body)
      isOn level file (.broken decl line child body)
      ((Expansion.broken decl line child body).recordLines file) := by
  intro trail
  have hentered (trail : Trail) : run inside trail = (.error e,
      trail.follow isOn (body.log child (level + 1)) (body.record child)) := by
    rw [hbody, Expansion.outcome, herror]
  have hfails (trail : Trail) : run (tryCatch inside fun e => throw (e.push file)) trail =
      (.error (e.push file), trail.follow isOn (body.log child (level + 1)) (body.record child)) :=
    run_tryCatch_of_error (hentered trail)
  have houtcome : (Expansion.broken decl line child body).outcome file = .error (e.push file) := by
    rw [Expansion.outcome, Expansion.error?, herror]
    rfl
  rw [run_bind_of_ok (run_note isOn _), run_bind_of_ok (run_change _),
    run_bind_of_error (hfails _), houtcome, Trail.follow_follow, Trail.follow_follow,
    List.nil_append]
  rfl

/-- A file that cannot be read ends the run, and nothing is recorded. -/
theorem unreadable (isOn : Bool) (level : Nat) (file : Path) :
    Does (throw (.splice ⟨.unreadable, file.toString, []⟩)) isOn level file .unreadable
      (Expansion.unreadable.record file) :=
  fun trail => congrArg (Prod.mk _) (trail.follow_id isOn).symm

/-- To claim a file and to record its lines, if that is the first claim, is to record the file. -/
theorem claimed {ofLines : Bool → Recorder (List String)} {expansion : Expansion}
    (h : ∀ isOn, Does (ofLines isOn) isOn level file expansion (expansion.recordLines file))
    (hreadable : expansion.isReadable = true) (isOn : Bool) :
    Does (do let isFirst ← claim isOn file; ofLines isFirst) isOn level file expansion
      (expansion.record file) := by
  intro trail
  rw [run_bind_of_ok (run_claim file), h, Trail.follow_follow, List.nil_append]
  cases isOn
  · rfl
  · simp only [Trail.follow, Bool.true_and, if_true, Expansion.record, Expansion.claimed,
      hreadable, Function.comp_apply]

end Does

/-- The lines of a file are flattened and recorded as their expansion says, if the files of the
modules are. -/
theorem does_ofLines {enter : Path → Recorder (List String)} {expand : Path → Expansion}
    (henter : ∀ child, Does (enter child) isOn (level + 1) child (expand child)
      ((expand child).record child))
    (hexpand : ∀ child, (expand child).error? child = none → (expand child).isComplete = true)
    (state : ScanState) (budget : Budget) (lines : List String) :
    let expansion := Expansion.ofLines tree active file expand state budget lines
    Does (ofLines tree active file level isOn enter state budget lines) isOn level file expansion
      (expansion.recordLines file) := by
  intro expansion
  subst expansion
  induction lines generalizing state budget with
  | nil => exact .finished isOn level file
  | cons line lines ih =>
    simp only [ofLines, Expansion.ofLines]
    cases Source.scanLine state line.toList with
    | error e => exact .unsupported isOn level file e
    | ok scan =>
      obtain ⟨next, _ | decl⟩ := scan
      · exact (ih next budget).copied line
      · dsimp only
        cases budget.spend? with
        | none => exact (ih next budget).kept decl line
        | some left =>
          dsimp only
          cases Expansion.target tree active file decl with
          | error cause => exact .refused isOn level file decl line cause.1 cause.2
          | ok child =>
            dsimp only
            cases herror : (expand child).error? child with
            | none =>
              rw [if_pos (hexpand child herror)]
              exact (henter child).spliced herror (ih next left) decl line
            | some e =>
              have hbroken : (expand child).isComplete ≠ true := fun hcomplete =>
                absurd (Expansion.error?_of_isComplete hcomplete child) (by simp [herror])
              rw [if_neg hbroken]
              exact (henter child).broken herror _ decl line

/-- A file is flattened and recorded as its expansion says. Once it has been claimed before, or is
inside of a file that has been, nothing is recorded. -/
theorem does_ofFile (tree : FileTree) (depth : Nat) (active : List Location) (file : Path)
    (level : Nat) (isOn : Bool) (budget : Budget) :
    let expansion := Expansion.ofFile tree depth active file budget
    Does (ofFile tree depth active file level isOn budget) isOn level file expansion
      (expansion.record file) := by
  intro expansion
  subst expansion
  induction depth generalizing active file level isOn budget with
  | zero => exact .unreadable isOn level file
  | succ depth ih =>
    rw [ofFile, Expansion.ofFile]
    cases Expansion.sourceOf? tree file with
    | none => exact .unreadable isOn level file
    | some source =>
      cases tree.realLocation file with
      | none => exact .unreadable isOn level file
      | some location =>
        refine .claimed (fun isFirst => ?_) (Expansion.isReadable_ofLines ..) isOn
        exact does_ofLines (fun child => ih (location :: active) child (level + 1) isFirst _)
          (fun child => Expansion.isComplete_ofFile) .idle budget (Text.sourceLines source)

end Recorder

/-! ## Recording does not interfere -/

/-- What a run gives: the flat text or the error, what was logged, and the graph. -/
structure Recording where
  result : Except FlattenError String
  log : List LogRecord
  graph : Option ModuleGraph

/-- Flattens a crate, and records it in a graph, if there is one. -/
def flattenInto (tree : FileTree) (root : Path) (budget : Budget) (graph : Option ModuleGraph) :
    Recording :=
  let start : Trail := ⟨[], (graph.map (·.setRoot root)).getD {}⟩
  let work := Recorder.ofFile tree (tree.fileCount + 1) [] root 0 graph.isSome budget
  let (result, trail) := work.run start
  ⟨result.map Text.unlines, trail.log, graph.map fun _ => trail.graph⟩

/-- Flattening with a graph, claiming file by file on the way, gives what is read off the expansion
afterwards. -/
theorem flattenInto_eq (tree : FileTree) (root : Path) (budget : Budget)
    (graph : Option ModuleGraph) :
    flattenInto tree root budget graph =
      { result := flatten tree root budget
        log := (Expansion.ofRoot tree root budget).log root 0
        graph := graph.map fun graph =>
          (Expansion.ofRoot tree root budget).record root (graph.setRoot root) } := by
  have hrun := Recorder.does_ofFile tree (tree.fileCount + 1) [] root 0 graph.isSome budget
    ⟨[], (graph.map (·.setRoot root)).getD {}⟩
  have hresult : ((Expansion.ofRoot tree root budget).outcome root).map Text.unlines =
      flatten tree root budget := by
    rw [Expansion.outcome, flatten]
    cases (Expansion.ofRoot tree root budget).error? root <;> rfl
  rw [flattenInto, hrun, ← hresult]
  cases graph <;> rfl

/-- Recording is inert. A run that records in any graph gives the same text or the same error and
the same log as one that records in an empty graph, and as one without a graph; and it only adds to
the graph, behind what is there. -/
theorem recording_is_inert (tree : FileTree) (root : Path) (budget : Budget)
    (graph : ModuleGraph) :
    let recorded := flattenInto tree root budget (some graph)
    let fresh := flattenInto tree root budget (some {})
    let bare := flattenInto tree root budget none
    recorded.result = bare.result ∧ fresh.result = bare.result ∧
      bare.result = flatten tree root budget ∧
      recorded.log = bare.log ∧ fresh.log = bare.log ∧
      bare.log = (Expansion.ofRoot tree root budget).log root 0 ∧ bare.graph = none ∧
      ∃ later, recorded.graph = some later ∧
        later = (Expansion.ofRoot tree root budget).record root (graph.setRoot root) ∧
        graph.nodes <+: later.nodes ∧
        ∀ file, graph.children file <+: later.children file ∧
          graph.unexpandedOf file <+: later.unexpandedOf file := by
  have hbecomes := (Expansion.ofRoot tree root budget).becomes_record root graph
  obtain ⟨hnodes, hchildren, hunexpanded⟩ := hbecomes.continues
  simp only [flattenInto_eq, Option.map_some, Option.map_none, true_and]
  exact ⟨_, rfl, rfl, hnodes, fun file => ⟨hchildren file, hunexpanded file⟩⟩

end FlatCrate
