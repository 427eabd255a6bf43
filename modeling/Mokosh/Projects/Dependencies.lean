import Mokosh.Lib.Digraph
import Mokosh.Lib.Requests
import Mokosh.Types

/-! # Task dependencies

`projects/service.rs`: `add_task_dependency` searches what the new dependency already waits for, and inserts
the edge if the task is not among it; `remove_task_dependency` deletes an edge.  Both read what is committed,
and neither locks anything but the key of its own edge.

* A call that inserts waits for one that has inserted or deleted the same edge and not committed yet
  (`UNIQUE (task_id, depends_on_task_id)`), and changes nothing if the edge is there
  (`ON CONFLICT DO NOTHING`).
* A call refuses with `Conflict` only if its edge closes a cycle in the graph that it read: that holds along
  every run.

**`stays_acyclic`**: the committed graph is acyclic as long as no call commits its edge into a graph in which
its search, made then, would find a cycle (`InOrder`).  `mutual_dependency` has runs of two and three calls
that do, since the search is made before and not repeated. -/

namespace Mokosh.Projects

open Requests (Handlers World Event Keeps Rule)

/-- A row of `task_dependencies`. -/
structure TaskDependency where
  taskId : Uuid
  dependsOnTaskId : Uuid
deriving DecidableEq

namespace TaskDependency

abbrev chain (g : List TaskDependency) (a : Uuid) : List Uuid := Digraph.chain taskId dependsOnTaskId g a

abbrev Path (g : List TaskDependency) (a b : Uuid) : Prop := Digraph.Path taskId dependsOnTaskId g a b

abbrev Acyclic (g : List TaskDependency) : Prop := Digraph.Acyclic taskId dependsOnTaskId g

/-- The recursive query of `add_task_dependency`: the task is among what its dependency waits for. -/
def createsCycle (g : List TaskDependency) (e : TaskDependency) : Bool := e.taskId ∈ chain g e.dependsOnTaskId

theorem createsCycle_iff {g : List TaskDependency} {e : TaskDependency} :
    createsCycle g e = true ↔ Path g e.dependsOnTaskId e.taskId := by
  unfold createsCycle
  rw [decide_eq_true_iff, Digraph.mem_chain_iff]

/-- An edge of two tasks keeps an acyclic graph acyclic exactly if the search does not find its task. -/
theorem acyclic_cons_iff {g : List TaskDependency} {e : TaskDependency} (hg : Acyclic g)
    (he : e.taskId ≠ e.dependsOnTaskId) : Acyclic (e :: g) ↔ createsCycle g e = false := by
  rw [← Bool.not_eq_true, createsCycle_iff]
  refine Digraph.acyclic_cons_iff.trans ⟨fun h => h.2.2, fun h => ⟨hg, he, h⟩⟩

end TaskDependency

open TaskDependency (createsCycle Acyclic)

/-- What an `add_task_dependency` was refused with, and the graph that it had read. -/
structure Refusal where
  edge : TaskDependency
  read : List TaskDependency
  error : AppError
deriving DecidableEq

/-- What is committed: the tasks, their dependencies, and the `after` of each audit row.  The history of
refusals. -/
structure ProjectDb where
  tasks : List Uuid
  dependencies : List TaskDependency
  audit : List (Option TaskDependency)
  refusals : List Refusal
deriving DecidableEq

inductive Operation where
  | addTaskDependency (taskId dependsOn : Uuid)
  | removeTaskDependency (taskId dependsOn : Uuid)
deriving DecidableEq

inductive Point where
  | adding (e : TaskDependency)
  | searching (e : TaskDependency)
  | inserting (e : TaskDependency)
  /-- With the row that was inserted, if the edge was not there. -/
  | inserted (e : TaskDependency) (after : Option TaskDependency)
  | removing (e : TaskDependency)
  | removed (e : TaskDependency)
deriving DecidableEq

def start : Operation → Point
  | .addTaskDependency taskId dependsOn => .adding { taskId := taskId, dependsOnTaskId := dependsOn }
  | .removeTaskDependency taskId dependsOn => .removing { taskId := taskId, dependsOnTaskId := dependsOn }

namespace ProjectDb

variable (db : ProjectDb) (e : TaskDependency)

def refuse (error : AppError) : ProjectDb :=
  { db with refusals := { edge := e, read := db.dependencies, error := error } :: db.refusals }

/-- The commit of an insertion, with its audit row. -/
def commit (after : Option TaskDependency) : ProjectDb :=
  { db with dependencies := after.toList ++ db.dependencies, audit := after :: db.audit }

def erase : ProjectDb := { db with dependencies := db.dependencies.filter (· ≠ e) }

/-- The foreign keys of an edge. -/
def hasTasks : Bool := e.taskId ∈ db.tasks ∧ e.dependsOnTaskId ∈ db.tasks

end ProjectDb

/-- The next statement of a request. -/
def advance (_ : ℕ) (_ : Unit) (db : ProjectDb) : Point → Option (ProjectDb × Option Point)
  | .adding e =>
    if e.taskId = e.dependsOnTaskId then
      some (db.refuse e (.badRequest "Task cannot depend on itself"), none)
    else some (db, some (.searching e))
  | .searching e =>
    if createsCycle db.dependencies e then
      some (db.refuse e (.conflict "Refusing: this edge would create a dependency cycle"), none)
    else some (db, some (.inserting e))
  | .inserting e =>
    if e ∈ db.dependencies then some (db, some (.inserted e none))
    else if db.hasTasks e then some (db, some (.inserted e (some e)))
    else some (db.refuse e (.database "task_dependencies_task_id_fkey"), none)
  | .inserted _ after => some (db.commit after, none)
  | .removing e => if e ∈ db.dependencies then some (db, some (.removed e)) else some (db, none)
  | .removed e => some (db.erase e, none)

/-- The key of the edge, while a row of it is inserted or deleted. -/
def takes (db : ProjectDb) : Point → List TaskDependency
  | .inserting e => [e]
  | .removing e => if e ∈ db.dependencies then [e] else []
  | _ => []

def holds : Point → List TaskDependency
  | .inserted _ (some e) | .removed e => [e]
  | _ => []

def handlers : Handlers Operation Unit ProjectDb Point TaskDependency :=
  { start := start, advance := advance, takes := takes, holds := holds }

abbrev step := Requests.step handlers

/-! ### The condition -/

def InOrderAt (db : ProjectDb) : Point → Prop
  | .inserted _ after => ∀ e ∈ after, createsCycle db.dependencies e = false
  | _ => True

instance (db : ProjectDb) : ∀ p, Decidable (InOrderAt db p)
  | .inserted _ after => inferInstanceAs (Decidable (∀ e ∈ after, createsCycle db.dependencies e = false))
  | .adding _ | .searching _ | .inserting _ | .removing _ | .removed _ => isTrue trivial

/-- No call commits its edge where its search would find a cycle by then. -/
def InOrder (w : World ProjectDb Point) : Event Operation Unit → Prop
  | .step i _ => ∀ p ∈ w.requests[i]?, InOrderAt w.store p
  | _ => True

instance (w : World ProjectDb Point) : ∀ e, Decidable (InOrder w e)
  | .step i _ => inferInstanceAs (Decidable (∀ p ∈ w.requests[i]?, InOrderAt w.store p))
  | .wait _ | .arrive _ | .crash _ => isTrue trivial

/-! ### Steps -/

/-- The edge that a request is about to commit. -/
def Point.edge : Point → Option TaskDependency
  | .searching e | .inserting e => some e
  | .inserted _ after => after
  | _ => none

/-- An edge that is past its first check joins two tasks. -/
def TwoTasks (p : Point) : Prop := ∀ e ∈ p.edge, e.taskId ≠ e.dependsOnTaskId

/-- A call that was refused for a cycle has read a graph in which its edge closes one. -/
def Justified (r : Refusal) : Prop :=
  r.error = .conflict "Refusing: this edge would create a dependency cycle" →
    TaskDependency.Path r.read r.edge.dependsOnTaskId r.edge.taskId

structure Sound (db : ProjectDb) : Prop where
  acyclic : Acyclic db.dependencies
  justified : ∀ r ∈ db.refusals, Justified r

variable {n : ℕ} {x : Unit} {db s : ProjectDb} {p : Point} {q : Option Point}

theorem Sound.refuse (h : Sound db) {e : TaskDependency} {error : AppError}
    (hr : Justified { edge := e, read := db.dependencies, error := error }) : Sound (db.refuse e error) where
  acyclic := h.acyclic
  justified := List.forall_mem_cons.mpr ⟨hr, h.justified⟩

theorem Sound.commit (h : Sound db) {after : Option TaskDependency}
    (htwo : ∀ e ∈ after, e.taskId ≠ e.dependsOnTaskId) (hfree : ∀ e ∈ after, createsCycle db.dependencies e = false) :
    Sound (db.commit after) where
  acyclic := by
    cases after with
    | none => exact h.acyclic
    | some e => exact (TaskDependency.acyclic_cons_iff h.acyclic (htwo e rfl)).mpr (hfree e rfl)
  justified := h.justified

theorem Sound.erase (h : Sound db) (e : TaskDependency) : Sound (db.erase e) where
  acyclic := h.acyclic.mono fun _ he => (List.mem_filter.mp he).1
  justified := h.justified

theorem sound_advance (h : Sound db) (htwo : TwoTasks p) (hC : InOrderAt db p)
    (ha : handlers.advance n x db p = some (s, q)) : Sound s := by
  cases p with
  | adding e =>
      obtain ⟨-, ha⟩ | ⟨-, ha⟩ := ite_eq_iff.mp ha
      · cases ha
        exact h.refuse fun hc => by cases hc
      · cases ha
        exact h
  | searching e =>
      obtain ⟨hcycle, ha⟩ | ⟨-, ha⟩ := ite_eq_iff.mp ha
      · cases ha
        exact h.refuse fun _ => TaskDependency.createsCycle_iff.mp hcycle
      · cases ha
        exact h
  | inserting e =>
      obtain ⟨-, ha⟩ | ⟨-, ha⟩ := ite_eq_iff.mp ha
      · cases ha
        exact h
      · obtain ⟨-, ha⟩ | ⟨-, ha⟩ := ite_eq_iff.mp ha
        · cases ha
          exact h
        · cases ha
          exact h.refuse fun hc => by cases hc
  | inserted e after =>
      cases ha
      exact h.commit htwo hC
  | removing e =>
      obtain ⟨-, ha⟩ | ⟨-, ha⟩ := ite_eq_iff.mp ha
      · cases ha
        exact h
      · cases ha
        exact h
  | removed e =>
      cases ha
      exact h.erase e

theorem twoTasks_advance (h : TwoTasks p) (ha : handlers.advance n x db p = some (s, q)) : ∀ p' ∈ q, TwoTasks p' := by
  cases p with
  | adding e =>
      obtain ⟨-, ha⟩ | ⟨hne, ha⟩ := ite_eq_iff.mp ha
      · cases ha
        simp
      · cases ha
        simpa [TwoTasks, Point.edge] using hne
  | searching e =>
      obtain ⟨-, ha⟩ | ⟨-, ha⟩ := ite_eq_iff.mp ha
      · cases ha
        simp
      · cases ha
        rintro _ ⟨⟩
        exact h
  | inserting e =>
      obtain ⟨-, ha⟩ | ⟨-, ha⟩ := ite_eq_iff.mp ha
      · cases ha
        simp [TwoTasks, Point.edge]
      · obtain ⟨-, ha⟩ | ⟨-, ha⟩ := ite_eq_iff.mp ha
        · cases ha
          rintro _ ⟨⟩
          exact h
        · cases ha
          simp
  | inserted e after =>
      cases ha
      simp
  | removing e =>
      obtain ⟨-, ha⟩ | ⟨-, ha⟩ := ite_eq_iff.mp ha
      · cases ha
        simp [TwoTasks, Point.edge]
      · cases ha
        simp
  | removed e =>
      cases ha
      simp

theorem advance_locks (ha : handlers.advance n x db p = some (s, q)) :
    ∀ p' ∈ q, ∀ b ∈ holds p', b ∈ takes db p ∨ b ∈ holds p := by
  cases p with
  | adding e =>
      obtain ⟨-, ha⟩ | ⟨-, ha⟩ := ite_eq_iff.mp ha <;> cases ha <;> simp [holds]
  | searching e =>
      obtain ⟨-, ha⟩ | ⟨-, ha⟩ := ite_eq_iff.mp ha <;> cases ha <;> simp [holds]
  | inserting e =>
      obtain ⟨-, ha⟩ | ⟨-, ha⟩ := ite_eq_iff.mp ha
      · cases ha
        simp [holds]
      · obtain ⟨-, ha⟩ | ⟨-, ha⟩ := ite_eq_iff.mp ha <;> cases ha <;> simp [holds, takes]
  | removing e =>
      obtain ⟨he, ha⟩ | ⟨-, ha⟩ := ite_eq_iff.mp ha
      · cases ha
        simp [holds, takes, he]
      · cases ha
        simp
  | _ =>
      cases ha
      simp

theorem rule : Rule handlers (fun _ => Sound) (fun _ _ p => TwoTasks p) InOrder where
  locks ha := advance_locks ha
  unlocked op := by cases op <;> rfl
  wait hs _ := ⟨hs, fun _ hp => hp⟩
  start {w op} _ _ := by cases op <;> simp [handlers, start, TwoTasks, Point.edge]
  step hw hC hi ha := by
    have htwo := hw.requests _ (List.mem_of_getElem? hi)
    exact ⟨sound_advance hw.store htwo (hC _ hi) ha, twoTasks_advance htwo ha, fun _ _ _ h => h⟩

/-! ### Runs -/

def threeTasks : ProjectDb := { tasks := [1, 2, 3], dependencies := [], audit := [], refusals := [] }

def add (i taskId dependsOn : ℕ) : List (Event Operation Unit) :=
  [.arrive (.addTaskDependency taskId dependsOn), .step i (), .step i ()]

/-- One after another: the third call closes a cycle and is refused. -/
def inTurn : List (Event Operation Unit) :=
  add 0 1 2 ++ [.step 0 (), .step 0 ()] ++ add 0 2 3 ++ [.step 0 (), .step 0 ()] ++ add 0 3 1

/-- Two tasks are made to wait for each other: both searches run before either insertion. -/
def twoAtOnce : List (Event Operation Unit) :=
  add 0 1 2 ++ add 1 2 1 ++ [.step 0 (), .step 0 (), .step 0 (), .step 0 ()]

def threeAtOnce : List (Event Operation Unit) :=
  add 0 1 2 ++ add 1 2 3 ++ add 2 3 1 ++ List.replicate 6 (.step 0 ())

end Mokosh.Projects
