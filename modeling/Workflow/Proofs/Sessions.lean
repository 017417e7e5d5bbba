import Workflow.Proofs.Resumption
import Workflow.Proofs.StoredText

/-!
# Sessions

A workflow goes on over several calls, and it makes no difference where its process is
between them: with a manager, with the caller, or in a store.

* `Manager.session` is the calls of one manager, and `Graph.session` calls that are each
  given the process and the context that the one before left.
* `Storage` is where a process is between two calls.  `Storage.reload?_eq`: it comes back at
  the same cursor, at most without its checkpoint.
* `Graph.Supplies` says that the checkpoint in force is that of the graph.  Then a process
  that lost its checkpoint gets the same one again (`attach_of_reloaded`), and a call leaves
  the process with the checkpoint in force (`checkpoint_of_advances`).
* `session_eq` is by induction on the calls, and `sessions_agree` the main result.
-/

namespace Workflow

variable {σ : Type}

/-! ## Calls one after the other -/

/-- Where a process is between two calls. -/
inductive Storage
  /-- The caller has it. -/
  | memory
  /-- It is stored as a document. -/
  | document
  /-- It is stored as a text. -/
  | text

/-- The process that the next call is given. -/
def Storage.reload? (storage : Storage) (process : Process σ) : Option (Process σ) :=
  match storage with
  | .memory => some process
  | .document => (Process.ofDocument process.toCursor.toDocument).toOption
  | .text => (Process.ofText process.toCursor.toText).toOption

/-- The calls of a manager with the given signals, up to one that does not end. -/
def Manager.session (limit : Nat) : Manager σ → List (Option Signal) → List (Segment σ)
  | _, [] => []
  | manager, signal? :: signals =>
    match manager.call limit signal? with
    | none => []
    | some segment => segment :: session limit (manager.afterCall segment) signals

/-- The calls of a graph with the given signals, up to one that does not end.  Each is given
the context that the one before left, and its process out of the storage. -/
def Graph.session (graph : Graph σ) (limit : Nat) :
    Execution σ → List (Storage × Option Signal) → List (Segment σ)
  | _, [] => []
  | start, (storage, signal?) :: calls =>
    match storage.reload? start.process with
    | none => []
    | some process =>
      match graph.call limit signal? (some process) start.context start.host with
      | none => []
      | some segment => segment :: graph.session limit segment.final calls

/-! ## The process between two calls -/

/-- A process with the cursor of another one, and with its checkpoint or none. -/
structure Process.ReloadedFrom (reloaded process : Process σ) : Prop where
  cursor : reloaded.toCursor = process.toCursor
  checkpoint : reloaded.checkpoint = none ∨ reloaded.checkpoint = process.checkpoint

theorem Storage.reload?_eq (storage : Storage) (process : Process σ) :
    ∃ reloaded, storage.reload? process = some reloaded ∧ reloaded.ReloadedFrom process := by
  cases storage with
  | memory => exact ⟨process, rfl, rfl, .inr rfl⟩
  | document =>
    refine ⟨.ofCursor process.toCursor, ?_, rfl, .inl rfl⟩
    rw [Storage.reload?, Process.ofDocument, Cursor.ofDocument_toDocument]
    rfl
  | text =>
    refine ⟨.ofCursor process.toCursor, ?_, rfl, .inl rfl⟩
    rw [Storage.reload?, Process.ofText, Cursor.ofText_toText]
    rfl

namespace Graph

variable {graph : Graph σ} {limit : Nat} {process reloaded : Process σ}

/-- The checkpoint in force is that of the graph, whether or not it is attached already. -/
def Supplies (graph : Graph σ) (process : Process σ) : Prop :=
  (graph.attach process).checkpoint = graph.checkpoint

theorem supplies_of_none (hnone : process.checkpoint = none) : graph.Supplies process := by
  rw [Supplies, attach, hnone]
  rfl

theorem attach_of_checkpoint (h : process.checkpoint = graph.checkpoint) :
    graph.attach process = process := by
  rw [attach, h, Option.or_self, ← h]

/-- What comes out of a storage is driven as what was put into it. -/
theorem attach_of_reloaded (hsupplies : graph.Supplies process)
    (h : reloaded.ReloadedFrom process) : graph.attach reloaded = graph.attach process := by
  obtain ⟨hcursor, hcheckpoint⟩ := h
  have hsame : reloaded.checkpoint.or graph.checkpoint = process.checkpoint.or graph.checkpoint := by
    rcases hcheckpoint with hnone | hkept
    · rw [hnone, Option.none_or]
      exact hsupplies.symm
    · rw [hkept]
  rw [attach, attach, hcursor, hsame]

/-- A call leaves its process with the checkpoint that it was made with. -/
theorem checkpoint_of_advances (hbuilt : graph.Built) {signal : Signal} {start : Execution σ}
    {segment : Segment σ} (h : graph.Advances limit signal start segment) :
    segment.final.process.checkpoint = start.process.checkpoint := by
  rw [process_of_advances hbuilt h]
  rfl

/-- The calls are those of a manager that has the process of the first one.  The induction is
on the calls: after each of them the manager is at the execution that the call left. -/
theorem session_eq (hbuilt : graph.Built) (limit : Nat) {start : Execution σ}
    (hsupplies : graph.Supplies start.process) (calls : List (Storage × Option Signal)) :
    graph.session limit start calls =
      (graph.manager (some start.process) start.context start.host).session limit
        (calls.map Prod.snd) := by
  induction calls generalizing start with
  | nil => rfl
  | cons call calls ih =>
    obtain ⟨storage, signal?⟩ := call
    obtain ⟨reloaded, hreload, hreloaded⟩ := storage.reload?_eq start.process
    have hcall : graph.call limit signal? (some reloaded) start.context start.host =
        (graph.manager (some start.process) start.context start.host).call limit signal? := by
      rw [Graph.call, manager, manager, Option.getD_some, Option.getD_some,
        attach_of_reloaded hsupplies hreloaded]
    simp only [session, Manager.session, List.map_cons, hreload, hcall]
    cases hsegment : (graph.manager (some start.process) start.context start.host).call limit
      signal? with
    | none => rfl
    | some segment =>
      have hcheckpoint : segment.final.process.checkpoint = graph.checkpoint :=
        (checkpoint_of_advances hbuilt ((advance_eq_some_iff hbuilt).mp hsegment)).trans hsupplies
      -- So the next call finds the checkpoint attached, or attaches the same one again.
      have hkept := attach_of_checkpoint hcheckpoint
      have hsupplied : graph.Supplies segment.final.process := by rw [Supplies, hkept, hcheckpoint]
      refine congrArg (segment :: ·) ((ih hsupplied).trans ?_)
      rw [manager, Option.getD_some, hkept]
      rfl

/-- A workflow on a process without a checkpoint of its own goes the same way, call by call,
whether one manager makes all the calls, or each call is given the process and the context
that the one before left, or the process is stored between some of the calls and read back:
as a document, or as a text, and before the first call too.  The calls have the same
contexts, the same cursors, and the same saves, also those after a call that failed.  What is
read back is at the same cursor. -/
theorem sessions_agree (hbuilt : graph.Built) (limit : Nat) {process : Process σ}
    (hnone : process.checkpoint = none) (context : Context σ) (host : σ) :
    (∀ (storage : Storage) (process : Process σ),
      ∃ reloaded, storage.reload? process = some reloaded ∧ reloaded.toCursor = process.toCursor) ∧
    ∀ calls : List (Storage × Option Signal),
      graph.session limit { context, process, host } calls =
        (graph.manager (some process) context host).session limit (calls.map Prod.snd) := by
  refine ⟨fun storage process => ?_, session_eq hbuilt limit (supplies_of_none hnone)⟩
  obtain ⟨reloaded, hreload, hreloaded⟩ := storage.reload?_eq process
  exact ⟨reloaded, hreload, hreloaded.cursor⟩

/-! ## An approval -/

/-- The host counts the saves. -/
def approvalSteps : List (Directive Nat) :=
  [ .checkpoint fun _ _ saves => (.ok true, saves + 1)
  , .startNode [(.proceed, ⟨"submit"⟩)]
  , .addNode (.define ⟨"submit"⟩ [.signals [(.proceed, .wait), (⟨"approve"⟩, ⟨"done"⟩)]])
  , .addNode (.new ⟨"done"⟩) ]

/-- A request waits until it is approved. -/
def approval : Graph Nat := (define "Approval" approvalSteps).toOption.getD { name := "" }

def request : Process Nat := Process.new.withReference "request \"1\""

/-- The request is stored twice.  Its second approval is refused. -/
def approvalCalls : List (Storage × Option Signal) :=
  [(.memory, none), (.text, some ⟨"approve"⟩), (.document, some ⟨"approve"⟩)]

/-- All is saved, although the request does not bring a checkpoint along. -/
theorem request_is_saved :
    ∃ segments, approval.session 3 ⟨.empty, request, 0⟩ approvalCalls = segments ∧
      (approval.manager (some request) .empty 0).session 3 (approvalCalls.map Prod.snd) =
        segments ∧
      segments.map (fun segment => segment.final.process.visited) =
        [[⟨"submit"⟩], [⟨"submit"⟩, ⟨"done"⟩], [⟨"submit"⟩, ⟨"done"⟩]] ∧
      segments.map (fun segment => segment.final.host) = [1, 2, 2] ∧
      segments.map (fun segment => segment.final.context.message) =
        [none, none, some "invalid signal: approve"] := by
  have hbuilt : approval.Built := ⟨"Approval", approvalSteps, rfl⟩
  have hnone : request.checkpoint = none := rfl
  obtain ⟨_, hsession⟩ := sessions_agree hbuilt 3 hnone .empty 0
  exact ⟨_, hsession approvalCalls, rfl, rfl, rfl, rfl⟩

end Graph

end Workflow
