import SchemaHeader.CommandLine
import SchemaHeader.Proofs.FileTrees

set_option autoImplicit false

/-! # What jobs do to a file tree

A job checks its paths and loads its document before it touches the tree. From then on only the
storage can stop it, and what it does there is to make the directories above its output and to write
the output.

* `FileTree.MakesWay`: actions that do nothing but make directories on the way to a path. The
  property passes from the parts of an action to the whole, and so from `makeDirectory` up to
  `createParents`.
* `Job.Completes`: the output holds the header that the text of the input compiles to, and nothing
  else has changed.
* `CommandLine.sparesOrDelivers`: **a job that fails early spares the tree, and one that succeeds
  delivers its output**, whatever problems the document has.
-/

namespace SchemaHeader

/-! ## Actions on a tree -/

namespace FileTree

variable {α β : Type} {path : String}

/-- Carries out an action on a tree. -/
def run (tree : FileTree) (action : StateM FileTree α) : α × FileTree :=
  action.run tree

@[simp] theorem run_pure (tree : FileTree) (value : α) :
    tree.run (pure value) = (value, tree) := rfl

@[simp] theorem run_bind (tree : FileTree) (action : StateM FileTree α)
    (rest : α → StateM FileTree β) :
    tree.run (action >>= rest) = (tree.run action).2.run (rest (tree.run action).1) := rfl

@[simp] theorem run_kind? (tree : FileTree) (path : String) :
    tree.run (Storage.kind? path) = (tree.kind? path, tree) := rfl

@[simp] theorem run_read (tree : FileTree) (path : String) :
    tree.run (Storage.read path) = (tree.read path, tree) := rfl

@[simp] theorem run_makeDirectory (tree : FileTree) (path : String) :
    tree.run (Storage.makeDirectory path) = tree.change (tree.makeDirectory path) := rfl

@[simp] theorem run_write (tree : FileTree) (path : String) (content : ByteArray) :
    tree.run (Storage.write path content) = tree.change (tree.write path content) := rfl

/-- Whether an action does nothing to a tree but make directories on the way to a path. -/
def MakesWay (path : String) (action : StateM FileTree α) : Prop :=
  ∀ tree : FileTree, tree.Grows (tree.run action).2 path

theorem MakesWay.pure (path : String) (value : α) :
    MakesWay path (Pure.pure value : StateM FileTree α) :=
  fun tree => Grows.refl tree path

theorem MakesWay.bind {action : StateM FileTree α} {rest : α → StateM FileTree β}
    (h : MakesWay path action) (hrest : ∀ value, MakesWay path (rest value)) :
    MakesWay path (action >>= rest) :=
  fun tree => (h tree).trans (hrest _ _)

theorem MakesWay.kind? (path other : String) :
    MakesWay path (Storage.kind? other : StateM FileTree _) :=
  fun tree => Grows.refl tree path

theorem makesWay_makeDirectory {above : String} (h : Path.IsAbove above path) :
    MakesWay path (Storage.makeDirectory above : StateM FileTree _) := by
  intro tree
  rw [run_makeDirectory]
  cases hmake : tree.makeDirectory above with
  | error error => exact Grows.refl tree path
  | ok next => exact Grows.of_makeDirectory h hmake

theorem makesWay_ensureDirectory {above : String} (h : Path.IsAbove above path) :
    MakesWay path (Storage.ensureDirectory above : StateM FileTree _) := by
  refine (makesWay_makeDirectory h).bind fun made => ?_
  cases made with
  | ok _ => exact .pure path _
  | error error =>
      refine (MakesWay.kind? path above).bind fun kind => ?_
      split
      · exact .pure path _
      · exact .pure path _

theorem makesWay_ensureBelow {above : String} {upper : StateM FileTree (Except FileError Unit)}
    (h : Path.IsAbove above path) (hupper : MakesWay path upper) :
    MakesWay path (Storage.ensureBelow above upper) := by
  refine (makesWay_ensureDirectory h).bind fun made => ?_
  split
  · refine hupper.bind fun result => ?_
    split
    · exact makesWay_ensureDirectory h
    · exact .pure path _
  · exact .pure path _

/-- What has been made when one of several directories fails is on the way too. -/
theorem makesWay_createChain {chain : List String} (h : ∀ above ∈ chain, Path.IsAbove above path) :
    MakesWay path (Storage.createChain chain : StateM FileTree _) := by
  induction chain with
  | nil => exact .pure path _
  | cons above rest ih =>
      have hrest := ih fun other hmem => h other (List.mem_cons_of_mem _ hmem)
      exact makesWay_ensureBelow (h above List.mem_cons_self) hrest

/-- **Making the directories above a path** makes nothing else. -/
theorem makesWay_createParents (path : String) :
    MakesWay path (Storage.createParents path : StateM FileTree _) :=
  makesWay_createChain fun _ hmem => Path.isAbove_of_mem_ancestors_tail hmem

/-- Whether the directories above an output can be made, so that a file can be put there. -/
def Admits (tree : FileTree) (path : String) : Prop :=
  (tree.run (Storage.createParents path)).1 = .ok () ∧
    ∀ content, ∃ next, (tree.run (Storage.createParents path)).2.write path content = .ok next

theorem exists_write {tree next : FileTree} {content : ByteArray}
    (h : tree.write path content = .ok next) (other : ByteArray) :
    ∃ last, tree.write path other = .ok last := by
  obtain ⟨place, name, hlocate, hslash, hchild, hentry, -⟩ := write_eq_ok_iff.mp h
  exact ⟨_, write_eq_ok_iff.mpr ⟨place, name, hlocate, hslash, hchild, hentry, rfl⟩⟩

end FileTree

/-! ## Jobs on a tree -/

namespace Job

variable {tree next : FileTree} {input output : String} {layout : Layout}

theorem run_check_snd (tree : FileTree) (input output : String) :
    (tree.run (check input output)).2 = tree := by
  simp only [check, FileTree.run_bind, FileTree.run_kind?]
  split
  · rfl
  · rfl
  · rfl
  · simp only [FileTree.run_bind, FileTree.run_kind?]
    split
    · rfl
    · rfl

theorem run_load_snd (tree : FileTree) (input : String) : (tree.run (load input)).2 = tree := by
  simp only [load, FileTree.run_bind, FileTree.run_read]
  split
  · rfl
  · rfl

/-- A document that was loaded is that of the text in the file. -/
theorem load_eq_ok {document : Document} (h : (tree.run (load input)).1 = .ok document) :
    ∃ content text, tree.read input = .ok content ∧ String.fromUTF8? content = some text ∧
      Document.parse text = .ok document := by
  simp only [load, FileTree.run_bind, FileTree.run_read] at h
  split at h
  · cases h
  · rename_i content hread
    simp only [FileTree.run_pure, decode] at h
    split at h
    · cases h
    · rename_i text htext
      split at h
      · cases h
      · rename_i found hparse
        cases h
        exact ⟨content, text, hread, htext, hparse⟩

/-- The two operations on the storage decide what becomes of a document. -/
theorem run_compileDocument (tree : FileTree) (document : Document) (output : String)
    (layout : Layout) :
    tree.run (compileDocument document output layout) =
      match tree.run (Storage.createParents output) with
      | (.error error, between) => (.error (.storage error), between)
      | (.ok (), between) =>
        match between.write output (render document layout).1 with
        | .error error => (.error (.storage error), between)
        | .ok next => (.ok (render document layout).2, next) := by
  rw [compileDocument, FileTree.run_bind]
  obtain ⟨made, between⟩ := tree.run (Storage.createParents output)
  cases made with
  | error error => rfl
  | ok _ =>
      simp only [FileTree.run_bind, FileTree.run_write]
      cases between.write output (render document layout).1 with
      | error error => rfl
      | ok next => rfl

/-- A header that was written has been delivered, and nothing else was done. -/
theorem delivers_of_compileDocument {document : Document} {result : Result}
    (h : tree.run (compileDocument document output layout) = (.ok result, next)) :
    tree.Delivers next output (render document layout).1 ∧ result = (render document layout).2 ∧
      tree.Admits output := by
  have hgrows := FileTree.makesWay_createParents output tree
  rw [run_compileDocument] at h
  rw [FileTree.Admits]
  generalize tree.run (Storage.createParents output) = parents at h hgrows ⊢
  obtain ⟨made, between⟩ := parents
  cases made with
  | error error => cases h
  | ok _ =>
      cases hwrite : between.write output (render document layout).1 with
      | error error =>
          simp only [hwrite] at h
          cases h
      | ok last =>
          simp only [hwrite] at h
          cases h
          exact ⟨hgrows.delivers hwrite, rfl, rfl, FileTree.exists_write hwrite⟩

/-- **Only the storage can stop a document** that was loaded. -/
theorem exists_result_iff_admits (tree : FileTree) (document : Document) (output : String)
    (layout : Layout) :
    (∃ result, (tree.run (compileDocument document output layout)).1 = .ok result) ↔
      tree.Admits output := by
  constructor
  · rintro ⟨result, h⟩
    exact (delivers_of_compileDocument (Prod.ext h rfl)).2.2
  · rintro ⟨hmade, hwrite⟩
    rw [run_compileDocument]
    generalize tree.run (Storage.createParents output) = parents at hmade hwrite
    obtain ⟨made, between⟩ := parents
    cases hmade
    obtain ⟨next, hnext⟩ := hwrite (render document layout).1
    simp only [hnext]
    exact ⟨_, rfl⟩

theorem run_compileFile (tree : FileTree) (input output : String) (layout : Layout) :
    tree.run (compileFile input output layout) =
      match (tree.run (load input)).1 with
      | .error failure => (.error failure, tree)
      | .ok document => tree.run (compileDocument document output layout) := by
  rw [compileFile, FileTree.run_bind, run_load_snd]
  cases (tree.run (load input)).1 with
  | error failure => rfl
  | ok document => rfl

/-- What a job that comes to its end leaves behind: the output has the header that the text of the
input compiles to, and all else in the tree is as it was, up to the directories above the output. -/
def Completes (tree next : FileTree) (input output : String) (layout : Layout) (report : Report) :
    Prop :=
  ∃ content text outcome, tree.read input = .ok content ∧ String.fromUTF8? content = some text ∧
    Compilation.compileText text layout (Sink.empty none) = .ok outcome ∧
    outcome.report = some report ∧ tree.Delivers next output outcome.session.sink.written

theorem completes_of_compileDocument {document : Document} {result : Result}
    (hload : (tree.run (load input)).1 = .ok document)
    (h : tree.run (compileDocument document output layout) = (.ok result, next)) :
    Completes tree next input output layout result.report := by
  obtain ⟨content, text, hread, htext, hparse⟩ := load_eq_ok hload
  obtain ⟨hdelivers, rfl, -⟩ := delivers_of_compileDocument h
  refine ⟨content, text, Compilation.compile document layout (Sink.empty none), hread, htext, ?_,
    ?_, hdelivers⟩
  · rw [Compilation.compileText, hparse]
  · exact (Option.some_get _).symm

theorem completes_of_compileFile {result : Result}
    (h : tree.run (compileFile input output layout) = (.ok result, next)) :
    Completes tree next input output layout result.report := by
  rw [run_compileFile] at h
  split at h
  · cases h
  · rename_i document hload
    exact completes_of_compileDocument hload h

end Job

/-! ## Runs of the program -/

namespace CommandLine

variable {tree next : FileTree} {invocation : Invocation}

theorem run_job (tree : FileTree) (invocation : Invocation) :
    tree.run (job invocation) =
      match (tree.run (Job.check invocation.input invocation.output)).1 with
      | .error failure => (.error failure, tree)
      | .ok () =>
        match (tree.run (Job.load invocation.input)).1 with
        | .error failure => (.error failure, tree)
        | .ok document =>
          match tree.run (Job.compileDocument document invocation.output invocation.layout) with
          | (.error failure, next) => (.error failure, next)
          | (.ok result, next) => (.ok (document, result), next) := by
  rw [job, FileTree.run_bind, Job.run_check_snd]
  cases (tree.run (Job.check invocation.input invocation.output)).1 with
  | error failure => rfl
  | ok _ =>
      rw [FileTree.run_bind, Job.run_load_snd]
      cases (tree.run (Job.load invocation.input)).1 with
      | error failure => rfl
      | ok document =>
          simp only [FileTree.run_bind]
          obtain ⟨made, next⟩ :=
            tree.run (Job.compileDocument document invocation.output invocation.layout)
          cases made with
          | error failure => rfl
          | ok result => rfl

theorem run_execute (tree : FileTree) (invocation : Invocation) :
    tree.run (execute invocation) =
      match tree.run (job invocation) with
      | (.error failure, next) => ({ exit := 1, stderr := ["Error: " ++ failure.inFull] }, next)
      | (.ok (document, result), next) => (finish invocation document result, next) := by
  rw [execute, FileTree.run_bind]
  obtain ⟨ended, next⟩ := tree.run (job invocation)
  cases ended with
  | error failure => rfl
  | ok pair => rfl

/-- What an invocation that fails early comes to: an error, and the tree as it was. -/
def Stops (tree : FileTree) (invocation : Invocation) (failure : Failure) : Prop :=
  tree.run (job invocation) = (.error failure, tree) ∧
    tree.run (execute invocation)
      = ({ exit := 1, stderr := ["Error: " ++ failure.inFull] }, tree)

theorem stops_of_job {failure : Failure} (h : tree.run (job invocation) = (.error failure, tree)) :
    Stops tree invocation failure := by
  refine ⟨h, ?_⟩
  rw [run_execute, h]

theorem stops_of_check {failure : Failure}
    (h : (tree.run (Job.check invocation.input invocation.output)).1 = .error failure) :
    Stops tree invocation failure := by
  apply stops_of_job
  rw [run_job, h]

theorem exists_stops_of_load {failure : Failure}
    (h : (tree.run (Job.load invocation.input)).1 = .error failure) :
    ∃ cause, Stops tree invocation cause := by
  cases hcheck : (tree.run (Job.check invocation.input invocation.output)).1 with
  | error cause => exact ⟨cause, stops_of_check hcheck⟩
  | ok _ =>
      refine ⟨failure, stops_of_job ?_⟩
      rw [run_job, hcheck, h]

/-- A job comes to its end if it checks, loads and compiles. -/
theorem job_eq_ok_iff {document : Document} {result : Job.Result} :
    tree.run (job invocation) = (.ok (document, result), next) ↔
      (tree.run (Job.check invocation.input invocation.output)).1 = .ok () ∧
        (tree.run (Job.load invocation.input)).1 = .ok document ∧
        tree.run (Job.compileDocument document invocation.output invocation.layout)
          = (.ok result, next) := by
  rw [run_job]
  constructor
  · intro h
    split at h
    · cases h
    · rename_i hcheck
      split at h
      · cases h
      · rename_i loaded hload
        split at h
        · cases h
        · rename_i made last hcompile
          cases h
          exact ⟨hcheck, hload, hcompile⟩
  · rintro ⟨hcheck, hload, hcompile⟩
    simp only [hcheck, hload, hcompile]

theorem exit_eq_zero_iff :
    (tree.run (execute invocation)).1.exit = 0 ↔
      ∃ document result next, tree.run (job invocation) = (.ok (document, result), next) := by
  rw [run_execute]
  obtain ⟨ended, next⟩ := tree.run (job invocation)
  cases ended with
  | error failure => simp
  | ok pair =>
      obtain ⟨document, result⟩ := pair
      simp [finish]

/-- What is promised to the tree on which an invocation is carried out, as the whole program or as
the compilation of one file into another. -/
structure SparesOrDelivers (tree : FileTree) (invocation : Invocation) : Prop where
  /-- Arguments that are read as this invocation carry it out. -/
  started : ∀ arguments, Invocation.parse arguments = .ok invocation →
    tree.run (run arguments) = tree.run (execute invocation)
  /-- A document that cannot be loaded stops both, with the tree as it was. -/
  unloaded : ∀ failure, (tree.run (Job.load invocation.input)).1 = .error failure →
    tree.run (Job.compileFile invocation.input invocation.output invocation.layout)
        = (.error failure, tree) ∧
      ∃ cause, Stops tree invocation cause
  /-- Paths that cannot be used stop the program, with the tree as it was. -/
  refused : ∀ failure,
    (tree.run (Job.check invocation.input invocation.output)).1 = .error failure →
    Stops tree invocation failure
  /-- A file that was compiled is delivered. -/
  compiled : ∀ result next,
    tree.run (Job.compileFile invocation.input invocation.output invocation.layout)
      = (.ok result, next) →
    Job.Completes tree next invocation.input invocation.output invocation.layout result.report
  /-- So is the output of a job that came to its end. -/
  ended : ∀ document result next, tree.run (job invocation) = (.ok (document, result), next) →
    Job.Completes tree next invocation.input invocation.output invocation.layout result.report
  /-- So is the output of a program that exits with status 0, and a report with errors is summed
  up in one line. -/
  exited : ∀ outcome next, tree.run (execute invocation) = (outcome, next) → outcome.exit = 0 →
    ∃ report, outcome.stderr = summary report ∧
      Job.Completes tree next invocation.input invocation.output invocation.layout report
  /-- What the report says never makes a compilation fail. -/
  compiles_iff :
    (∃ result,
      (tree.run (Job.compileFile invocation.input invocation.output invocation.layout)).1
        = .ok result) ↔
      (∃ document, (tree.run (Job.load invocation.input)).1 = .ok document) ∧
        tree.Admits invocation.output
  /-- Nor does it change the exit status. -/
  exits_iff : (tree.run (execute invocation)).1.exit = 0 ↔
    (tree.run (Job.check invocation.input invocation.output)).1 = .ok () ∧
      (∃ document, (tree.run (Job.load invocation.input)).1 = .ok document) ∧
      tree.Admits invocation.output

theorem completes_of_job {document : Document} {result : Job.Result}
    (h : tree.run (job invocation) = (.ok (document, result), next)) :
    Job.Completes tree next invocation.input invocation.output invocation.layout
      result.report := by
  obtain ⟨-, hload, hcompile⟩ := job_eq_ok_iff.mp h
  exact Job.completes_of_compileDocument hload hcompile

/-- The program succeeds exactly if its paths can be used, its document can be loaded and its output
can be written. -/
theorem exit_eq_zero_iff_admits :
    (tree.run (execute invocation)).1.exit = 0 ↔
      (tree.run (Job.check invocation.input invocation.output)).1 = .ok () ∧
        (∃ document, (tree.run (Job.load invocation.input)).1 = .ok document) ∧
        tree.Admits invocation.output := by
  rw [exit_eq_zero_iff]
  constructor
  · rintro ⟨document, result, next, h⟩
    obtain ⟨hcheck, hload, hcompile⟩ := job_eq_ok_iff.mp h
    exact ⟨hcheck, ⟨document, hload⟩, (Job.delivers_of_compileDocument hcompile).2.2⟩
  · rintro ⟨hcheck, ⟨document, hload⟩, hadmits⟩
    obtain ⟨result, hresult⟩ :=
      (Job.exists_result_iff_admits tree document invocation.output invocation.layout).mpr hadmits
    exact ⟨document, result, _, job_eq_ok_iff.mpr ⟨hcheck, hload, Prod.ext hresult rfl⟩⟩

/-- **A job spares the tree or delivers its output.** It fails before anything is written, or it
gets as far as the storage lets it; and if it succeeds, the output alone is written. -/
theorem sparesOrDelivers (tree : FileTree) (invocation : Invocation) :
    SparesOrDelivers tree invocation where
  started := by
    intro arguments hparse
    rw [run, hparse]
  unloaded := by
    intro failure hload
    refine ⟨?_, exists_stops_of_load hload⟩
    rw [Job.run_compileFile, hload]
  refused := fun failure hcheck => stops_of_check hcheck
  compiled := fun result next h => Job.completes_of_compileFile h
  ended := fun document result next h => completes_of_job h
  exited := by
    intro outcome next hrun hexit
    have hzero : (tree.run (execute invocation)).1.exit = 0 := hrun ▸ hexit
    obtain ⟨document, result, last, hjob⟩ := exit_eq_zero_iff.mp hzero
    -- The outcome is that of a finished job, so the error stream has the summary and no more.
    rw [run_execute, hjob] at hrun
    cases hrun
    exact ⟨result.report, rfl, completes_of_job hjob⟩
  compiles_iff := by
    rw [Job.run_compileFile]
    cases (tree.run (Job.load invocation.input)).1 with
    | error failure => simp
    | ok document =>
        have hadmits :=
          Job.exists_result_iff_admits tree document invocation.output invocation.layout
        simpa using hadmits
  exits_iff := exit_eq_zero_iff_admits

/-- A directory with a document that refers to nothing, a text that is no document, and a header. -/
def shelf : FileTree :=
  ⟨[(["work"], .directory),
    (["car.json", "work"], .file "\x7b\"Car\": \x7b\"$ref\": \"#/Base\"\x7d\x7d".toUTF8),
    (["bad.json", "work"], .file "\x7b".toUTF8),
    (["car.h", "work"], .file "old".toUTF8)], ["work"]⟩

/-- The invocation with an input, an output and nothing else. -/
def ask (input output : String) : Invocation :=
  ⟨input, output, { }, false, false⟩

/-- A text that is no document leaves the old header alone; a reference to nothing is reported, and
the header is delivered into a new directory or over the document itself. -/
theorem sparesOrDelivers_shelf :
    (∃ cause, Stops shelf (ask "bad.json" "car.h") cause) ∧
    ∀ output ∈ ["out/car.h", "./car.json"], ∃ outcome next report,
      shelf.run (execute (ask "car.json" output)) = (outcome, next) ∧
        outcome.stderr = summary report ∧ outcome.stderr ≠ [] ∧
        Job.Completes shelf next "car.json" output { } report := by
  refine ⟨?_, ?_⟩
  · have hload : ∃ failure, (shelf.run (Job.load "bad.json")).1 = .error failure := ⟨_, rfl⟩
    obtain ⟨failure, hload⟩ := hload
    exact ((sparesOrDelivers shelf (ask "bad.json" "car.h")).unloaded failure hload).2
  · intro output houtput
    have hzero : (shelf.run (execute (ask "car.json" output))).1.exit = 0 := by
      revert output
      decide +kernel
    have hsummed : (shelf.run (execute (ask "car.json" output))).1.stderr ≠ [] := by
      revert output
      decide +kernel
    obtain ⟨report, hreport, hcompletes⟩ :=
      (sparesOrDelivers shelf (ask "car.json" output)).exited _ _ rfl hzero
    exact ⟨_, _, report, rfl, hreport, hsummed, hcompletes⟩

end CommandLine

end SchemaHeader
