import ArenaCore.Lib.Rows
import ArenaCore.Lib.Runs
import ArenaCore.Runner.Cleanup

/-!
# Admission of Requests

`listenSupervisor` in `apps/runner/src/server.ts`: the handlers of all requests
share a count of those admitted, and a map from the attempts in progress to the
controllers that abort them. The supervisor behind has a map of its own. Both
are changed around awaits and cleaned up in `finally` clauses.

A handler stops where it awaits: the next chunk of the body, or the
supervisor. An event goes to one of them, and what the code does until its next
await is one step.

## Main definitions

* `Handler`, `Server`: A handler where it stopped, and what all of them share.
* `Server.deliver`: The code between two awaits.
* `Server.step`, `Server.run`: Any order of events.
* `Exact`: The count and both maps are what the handlers say.
* `Turn`: What a handler that goes on owes to the books and to the others.

## Theorems

* `admission_exact`: At most eight requests and two executions, and the books balance.
* `execution_untouched`: Nothing but its own events, a cancellation of its key and the
  closing of the server concerns an execution.
-/

namespace ArenaCore

namespace ListenSupervisor

/-! ### Handlers -/

inductive Endpoint where
  | execute
  | cancel

structure Head where
  method : String
  url : String
  contentType : Option String

/-- What a request is for, unless it is malformed. -/
def Head.endpoint? (head : Head) : Option Endpoint :=
  if head.method ≠ "POST" ∨ head.contentType ≠ some "application/json" then none
  else if head.url = "/execute" then some .execute
  else if head.url = "/cancel" then some .cancel
  else none

/-- A call of the supervisor. While it works it has an abort signal of its own. -/
inductive Work where
  | running (aborted : Bool)
  | settled (result : Except RunnerError ExecutionObservation)

/-- A call is refused at once, or has its first question. -/
def Work.start (aborted : Bool) : Runner ExecutionObservation → Work
  | .done result => .settled result
  | .ask _ _ => .running aborted

/-- The await a handler stopped at. -/
inductive Phase where
  | reading (received : Bytes)
  | waiting (request : AcceptedRequest) (work : Work)

/-- The signal reaches the supervisor only while it works. -/
def Phase.abort : Phase → Phase
  | .waiting request (.running _) => .waiting request (.running true)
  | phase => phase

structure Handler where
  id : Nat
  url : Endpoint
  aborted : Bool := false
  /-- Whether the response can no longer be written. -/
  destroyed : Bool := false
  phase : Phase := .reading []

namespace Handler

def abort (h : Handler) : Handler :=
  { h with aborted := true, phase := h.phase.abort }

/-- The entry of `controllers` that belongs to a handler. -/
def registration (h : Handler) : Option (String × Nat) :=
  match h.phase with
  | .reading _ => none
  | .waiting request _ => some (request.key, h.id)

/-- The key in the supervisor's `active` that belongs to a handler. -/
def running (h : Handler) : Option String :=
  match h.phase with
  | .waiting request (.running _) => some request.key
  | _ => none

end Handler

/-! ### The server -/

/-- What the runtime can deliver to a handler. -/
inductive Signal where
  | chunk (bytes : Bytes)
  | ended
  /-- Reading the body fails. -/
  | broken
  | disconnected
  /-- The timer of `execute`. -/
  | deadline
  | settled (result : Except RunnerError ExecutionObservation)
  /-- The await of the supervisor returns. -/
  | resumed

inductive Event where
  | request (id : Nat) (head : Head)
  | deliver (id : Nat) (signal : Signal)
  /-- What becomes of the supervisor apart from calls. -/
  | upkeep (e : SupervisorEvent)
  | close

inductive ReplyBody where
  | failure (code : String)
  | requested (requested : Bool)
  | observed (result : ExecutionObservation) (cancellationConfirmed : Bool)

structure Reply where
  id : Nat
  status : Nat
  body : ReplyBody

structure Server where
  closing : Bool
  admitted : Nat
  /-- A controller is named by the request it was made for. -/
  controllers : Rows (Prod.fst : String × Nat → String)
  supervisor : SandboxSupervisor
  /-- The handlers that have not returned. The one that goes on is taken out until its
      next await. -/
  handlers : List Handler

/-- `JSON.parse` and the shapes of both bodies. -/
structure Bodies where
  execute : Bytes → Option SandboxRequest
  cancel : Bytes → Option (String × Int)

/-- `sandboxRequestSchema.parse` of a body. -/
def Bodies.request (io : Bodies) (received : Bytes) : Option AcceptedRequest :=
  (io.execute received).bind fun request =>
    if h : sandboxRequestSchema request = true then some ⟨request, h⟩ else none

/-- The key a body asks to cancel, if its schema accepts it. -/
def Bodies.cancelKey (io : Bodies) (received : Bytes) : Option String :=
  (io.cancel received).bind fun (executionId, attempt) =>
    if isUuid executionId && isSafeInteger attempt && decide (0 < attempt) then
      some (executionId ++ ":" ++ toString attempt)
    else none

/-- The answer once the supervisor has settled. -/
def answer (aborted : Bool) : Except RunnerError ExecutionObservation → Nat × ReplyBody
  | .ok result => (200, .observed result aborted)
  | .error e =>
      if e = .docker .aborted ∧ aborted = true then (200, .observed {} true)
      else if e = .cleanup then (503, .failure "SANDBOX_CLEANUP_UNCONFIRMED")
      else (503, .failure "EXECUTION_UNAVAILABLE")

namespace Server

def put (s : Server) (h : Handler) : Server :=
  { s with handlers := h :: s.handlers }

/-- A reply, if it can still be written, and the `finally` clause. -/
def finish (s : Server) (h : Handler) (status : Nat) (body : ReplyBody) :
    Server × Option Reply :=
  ({ s with
      controllers :=
        match h.registration with
        | none => s.controllers
        | some entry => s.controllers.delete fun e => decide (e.1 = entry.1)
      admitted := s.admitted - 1 },
    if h.destroyed then none else some ⟨h.id, status, body⟩)

/-- `controller.abort()`. -/
def abort (s : Server) (owner : Nat) : Server :=
  { s with handlers := s.handlers.map fun h => if h.id = owner then h.abort else h }

variable (io : Bodies) (lib : Library)

/-- The attempt is entered, and the supervisor called with the handler's signal. -/
def register (s : Server) (h : Handler) (request : AcceptedRequest) : Server :=
  let work := Work.start h.aborted (s.supervisor.execute lib request)
  { s.put { h with phase := .waiting request work } with
    controllers := s.controllers.insert (request.key, h.id)
    supervisor := s.supervisor.step lib (.execute request) }

/-- The body of a request is complete. -/
def ended (s : Server) (h : Handler) (received : Bytes) : Server × Option Reply :=
  match h.url with
  | .cancel =>
      match io.cancelKey received with
      | none => s.finish h 503 (.failure "EXECUTION_UNAVAILABLE")
      | some key =>
          match s.controllers.find key with
          | none => s.finish h 409 (.requested false)
          | some entry => (s.abort entry.2).finish h 200 (.requested true)
  | .execute =>
      match io.request received with
      | none => s.finish h 503 (.failure "EXECUTION_UNAVAILABLE")
      | some request =>
          if (s.controllers.find request.key).isSome then
            s.finish h 503 (.failure "DUPLICATE_ATTEMPT")
          else (s.register lib h request, none)

/-- A request arrives. -/
def request (s : Server) (id : Nat) (head : Head) : Server × Option Reply :=
  if s.closing = true ∨ 8 ≤ s.admitted then (s, some ⟨id, 503, .failure "RUNNER_CAPACITY"⟩)
  else
    match head.endpoint? with
    | none => (s, some ⟨id, 400, .failure "INVALID_REQUEST"⟩)
    | some url => ({ s.put { id := id, url := url } with admitted := s.admitted + 1 }, none)

/-- A handler goes on until its next await. A signal it is not waiting for is no
    event. -/
def deliver (s : Server) (h : Handler) (signal : Signal) : Server × Option Reply :=
  match signal, h.phase with
  | .chunk bytes, .reading received =>
      if 2 * 1024 * 1024 < (received ++ bytes).length then
        s.finish h 413 (.failure "REQUEST_TOO_LARGE")
      else (s.put { h with phase := .reading (received ++ bytes) }, none)
  | .ended, .reading received => s.ended io lib h received
  | .broken, .reading _ => s.finish h 503 (.failure "EXECUTION_UNAVAILABLE")
  | .disconnected, _ => (s.put { h.abort with destroyed := true }, none)
  | .deadline, _ => (s.put { h with phase := h.phase.abort }, none)
  | .settled result, .waiting request (.running _) =>
      ({ s.put { h with phase := .waiting request (.settled result) } with
          supervisor := s.supervisor.step lib (.settle request) }, none)
  | .resumed, .waiting _ (.settled result) =>
      s.finish h (answer h.aborted result).1 (answer h.aborted result).2
  | _, _ => (s.put h, none)

def step (s : Server) : Event → Server × Option Reply
  -- No two open requests have the same number.
  | .request id head =>
      if id ∈ s.handlers.map Handler.id then (s, none) else s.request id head
  | .deliver id signal =>
      match s.handlers.filter (·.id == id) with
      | [h] => { s with handlers := s.handlers.filter (!·.id == id) }.deliver io lib h signal
      | _ => (s, none)
  | .upkeep (.execute _) | .upkeep (.settle _) | .upkeep .stopAccepting => (s, none)
  | .upkeep e => ({ s with supervisor := s.supervisor.step lib e }, none)
  | .close =>
      ({ s with
          handlers := s.handlers.map fun h => { h with phase := h.phase.abort }
          closing := true
          supervisor := s.supervisor.step lib .stopAccepting }, none)

def start (ready : Bool) : Server :=
  ⟨false, 0, ⟨[], by decide⟩, { ready := ready }, []⟩

def run (ready : Bool) (events : List Event) : Server :=
  Runs.run (step io lib) (start ready) events

end Server

variable {io : Bodies} {lib : Library} {s : Server} {h g : Handler} {handlers : List Handler}

/-! ### The books -/

/-- The count and the maps are what the handlers say. -/
structure Exact (admitted : Nat) (controllers : List (String × Nat)) (active : List String)
    (handlers : List Handler) : Prop where
  counted : admitted = handlers.length
  registered : controllers.Perm (handlers.filterMap Handler.registration)
  running : active.Perm (handlers.filterMap Handler.running)
  limit : admitted ≤ 8
  capacity : active.length ≤ 2
  distinct : (handlers.map Handler.id).Nodup

/-- The same, of a server while one handler is taken out. -/
def Server.Exact (s : Server) (handlers : List Handler) : Prop :=
  ListenSupervisor.Exact s.admitted s.controllers.rows s.supervisor.active handlers

theorem registration_abort (h : Handler) :
    ({ h with phase := h.phase.abort } : Handler).registration = h.registration ∧
      ({ h with phase := h.phase.abort } : Handler).running = h.running := by
  obtain ⟨id, url, aborted, destroyed, phase⟩ := h
  rcases phase with received | ⟨request, aborted | result⟩ <;> exact ⟨rfl, rfl⟩

namespace Exact

variable {admitted : Nat} {controllers controllers' : List (String × Nat)}
  {active active' : List String} {handlers' : List Handler} {h' : Handler}

section

variable (hs : Exact admitted controllers active handlers)
include hs

theorem perm (hperm : handlers.Perm handlers') : Exact admitted controllers active handlers' where
  counted := hs.counted.trans hperm.length_eq
  registered := hs.registered.trans (hperm.filterMap _)
  running := hs.running.trans (hperm.filterMap _)
  limit := hs.limit
  capacity := hs.capacity
  distinct := (hperm.map _).nodup_iff.1 hs.distinct

/-- Handlers that change nothing the books are about. -/
theorem map {f : Handler → Handler} (hid : ∀ h, (f h).id = h.id)
    (hf : ∀ h, (f h).registration = h.registration ∧ (f h).running = h.running) :
    Exact admitted controllers active (handlers.map f) where
  counted := hs.counted.trans (List.length_map f).symm
  registered := by
    rw [List.filterMap_map, show Handler.registration ∘ f = _ from funext fun h => (hf h).1]
    exact hs.registered
  running := by
    rw [List.filterMap_map, show Handler.running ∘ f = _ from funext fun h => (hf h).2]
    exact hs.running
  limit := hs.limit
  capacity := hs.capacity
  distinct := by
    rw [List.map_map, show Handler.id ∘ f = _ from funext hid]
    exact hs.distinct

/-- The controller of a key belongs to the handler that is registered under it. -/
theorem owner (hg : g ∈ handlers) {entry : String × Nat}
    (hentry : entry ∈ controllers) (hid : g.id = entry.2) :
    g.registration = some entry := by
  obtain ⟨h, hh, hregistered⟩ := List.mem_filterMap.1 (hs.registered.mem_iff.1 hentry)
  have howner : entry.2 = h.id := by
    unfold Handler.registration at hregistered
    split at hregistered <;> cases hregistered
    rfl
  rwa [List.inj_on_of_nodup_map hs.distinct hg hh (hid.trans howner)]

end

/-- One handler goes on as another with its identity. -/
theorem cons (hs : Exact admitted controllers active (h :: handlers)) (hid : h'.id = h.id)
    (hregistered : controllers'.Perm ((h' :: handlers).filterMap Handler.registration))
    (hrunning : active'.Perm ((h' :: handlers).filterMap Handler.running))
    (hcapacity : active'.length ≤ 2) : Exact admitted controllers' active' (h' :: handlers) :=
  ⟨hs.counted, hregistered, hrunning, hs.limit, hcapacity, by
    rw [List.map_cons, hid]
    exact hs.distinct⟩

end Exact

/-- What a handler gives back when it returns. -/
theorem Server.Exact.finish (hs : s.Exact (h :: handlers)) (hidle : h.running = none) (status : Nat)
    (body : ReplyBody) : (s.finish h status body).1.Exact handlers where
  counted := by
    change s.admitted - 1 = _
    rw [hs.counted, List.length_cons, Nat.add_sub_cancel]
  registered := by
    have hbooks := hs.registered
    unfold Server.finish
    cases hentry : h.registration with
    | none => rwa [List.filterMap_cons_none hentry] at hbooks
    | some entry =>
        rw [List.filterMap_cons_some hentry] at hbooks
        obtain ⟨others, hall, hdeleted⟩ := Rows.exists_rest (hbooks.mem_iff.2 List.mem_cons_self)
        exact hdeleted.trans (hall.symm.trans hbooks).cons_inv
  running := by
    have hbooks := hs.running
    rwa [List.filterMap_cons_none hidle] at hbooks
  limit := (Nat.sub_le _ _).trans hs.limit
  capacity := hs.capacity
  distinct := hs.distinct.of_cons

/-- The supervisor works on what it enters in its map. -/
theorem running_start (supervisor : SandboxSupervisor) (request : AcceptedRequest) (h : Handler) :
    ({ h with phase := .waiting request (.start h.aborted (supervisor.execute lib request)) } :
      Handler).running = if supervisor.admits request then some request.key else none := by
  have hworks : Work.start h.aborted (do
      let finished ← perform lib request.toSandboxRequest
      pure finished.1) = .running h.aborted := rfl
  have hraises (e : RunnerError) : Work.start h.aborted (.raise e) = .settled (.error e) := rfl
  unfold SandboxSupervisor.admits SandboxSupervisor.execute Handler.running
  grind

theorem Server.Exact.register (hs : s.Exact (h :: s.handlers)) {received : Bytes}
    (hphase : h.phase = .reading received) {request : AcceptedRequest}
    (hfree : s.controllers.find request.key = none) :
    (s.register lib h request).Exact (s.register lib h request).handlers := by
  have hregistered := hs.registered
  have hrunning := hs.running
  rw [List.filterMap_cons_none (by rw [Handler.registration, hphase])] at hregistered
  rw [List.filterMap_cons_none (by rw [Handler.running, hphase])] at hrunning
  unfold Server.Exact
  refine hs.cons rfl ?_ ?_ ?_
  · change (s.controllers.insert (request.key, h.id)).rows.Perm _
    rw [Rows.rows_insert hfree]
    exact (List.perm_append_singleton _ _).trans (hregistered.cons _)
  all_goals simp only [Server.register, SandboxSupervisor.step]
  · rw [List.filterMap_cons, running_start]
    cases s.supervisor.admits request with
    | true => exact (List.perm_append_singleton _ _).trans (hrunning.cons _)
    | false => exact hrunning
  · split
    · next hadmits =>
        simp only [SandboxSupervisor.admits, Bool.and_eq_true, decide_eq_true_eq] at hadmits
        exact (List.length_append ..).trans_le hadmits.1.2
    · exact hs.capacity

/-! ### Turns -/

/-- The body of a request to abort a registered attempt is complete. -/
def Cancels (io : Bodies) (s : Server) (h : Handler) (entry : String × Nat) : Prop :=
  ∃ received, h.phase = .reading received ∧ h.url = .cancel ∧
    io.cancelKey received = some entry.1 ∧ entry ∈ s.controllers.rows

/-- What a handler that goes on leaves: exact books, and the other handlers as they
    are, except for one whose attempt it cancels. -/
structure Turn (io : Bodies) (s : Server) (h : Handler) (signal : Signal) (next : Server) :
    Prop where
  exact : next.Exact next.handlers
  others : ∀ g ∈ s.handlers, g ∈ next.handlers ∨
    signal = .ended ∧ ∃ entry, Cancels io s h entry ∧ g.registration = some entry

section

variable (hs : s.Exact (h :: s.handlers))

include hs

theorem turn_finish (hidle : h.running = none) (status : Nat) (body : ReplyBody) (signal : Signal) :
    Turn io s h signal (s.finish h status body).1 where
  exact := hs.finish hidle status body
  others _ hg := .inl hg

theorem turn_kept (h' : Handler) (hid : h'.id = h.id)
    (hsame : h'.registration = h.registration ∧ h'.running = h.running) (signal : Signal) :
    Turn io s h signal (s.put h') where
  exact := by
    refine hs.cons hid ?_ ?_ hs.capacity
    · rw [List.filterMap_cons, hsame.1, ← List.filterMap_cons]
      exact hs.registered
    · rw [List.filterMap_cons, hsame.2, ← List.filterMap_cons]
      exact hs.running
  others _ hg := .inl (List.mem_cons_of_mem h' hg)

theorem turn_ended {received : Bytes} (hphase : h.phase = .reading received) :
    Turn io s h .ended (s.ended io lib h received).1 := by
  have hidle : h.running = none := by rw [Handler.running, hphase]
  unfold Server.ended
  split
  · next hurl =>
      split
      · exact turn_finish hs hidle _ _ _
      next key hkey =>
        split
        · exact turn_finish hs hidle _ _ _
        next entry hfind =>
          obtain ⟨hfound, rfl⟩ := Rows.mem_of_find hfind
          refine ⟨(hs.finish hidle 200 (.requested true)).map (fun h => by split <;> rfl) fun h => ?_,
            fun g hg => ?_⟩
          · split
            · exact registration_abort h
            · exact ⟨rfl, rfl⟩
          · by_cases hid : g.id = entry.2
            · exact .inr ⟨rfl, entry, ⟨received, hphase, hurl, hkey, hfound⟩,
                hs.owner (List.mem_cons_of_mem h hg) hfound hid⟩
            · exact .inl (List.mem_map.2 ⟨g, hg, if_neg hid⟩)
  · split
    · exact turn_finish hs hidle _ _ _
    · split
      · exact turn_finish hs hidle _ _ _
      · next hfree =>
          exact ⟨hs.register hphase (Option.not_isSome_iff_eq_none.1 hfree),
            fun g hg => .inl (List.mem_cons_of_mem _ hg)⟩

theorem turn_settled {request : AcceptedRequest} {aborted : Bool}
    (hphase : h.phase = .waiting request (.running aborted))
    (result : Except RunnerError ExecutionObservation) (signal : Signal) :
    Turn io s h signal { s.put { h with phase := .waiting request (.settled result) } with
      supervisor := s.supervisor.step lib (.settle request) } where
  exact := by
    have hbooks := hs.running
    have hkey : h.running = some request.key := by rw [Handler.running, hphase]
    rw [List.filterMap_cons_some hkey] at hbooks
    have herased := hbooks.erase request.key
    rw [List.erase_cons_head] at herased
    have hsame : ({ h with phase := .waiting request (.settled result) } : Handler).registration
        = h.registration := by rw [Handler.registration, Handler.registration, hphase]
    refine hs.cons rfl ?_ herased (List.length_erase_le.trans hs.capacity)
    rw [List.filterMap_cons, hsame, ← List.filterMap_cons]
    exact hs.registered
  others _ hg := .inl (List.mem_cons_of_mem _ hg)

theorem turn_deliver (signal : Signal) : Turn io s h signal (s.deliver io lib h signal).1 := by
  unfold Server.deliver
  split
  · next bytes received hphase =>
      have hidle : h.running = none := by rw [Handler.running, hphase]
      split
      · exact turn_finish hs hidle _ _ _
      · refine turn_kept hs { h with phase := .reading (received ++ bytes) } rfl ⟨?_, hidle.symm⟩ _
        rw [Handler.registration, Handler.registration, hphase]
  · next hphase => exact turn_ended hs hphase
  · next hphase => exact turn_finish hs (by rw [Handler.running, hphase]) _ _ _
  · exact turn_kept hs { h.abort with destroyed := true } rfl (registration_abort h) _
  · exact turn_kept hs { h with phase := h.phase.abort } rfl (registration_abort h) _
  · next hphase => exact turn_settled hs hphase _ _
  · next hphase => exact turn_finish hs (by rw [Handler.running, hphase]) _ _ _
  · exact turn_kept hs h rfl ⟨rfl, rfl⟩ _

end

/-- Who is taken out was among the handlers. -/
theorem taken_perm {id : Nat} (hfound : handlers.filter (·.id == id) = [h]) :
    handlers.Perm (h :: handlers.filter (!·.id == id)) ∧ h.id = id := by
  have hperm := List.filter_append_perm (·.id == id) handlers
  rw [hfound] at hperm
  have hmem : h ∈ handlers.filter (·.id == id) := hfound ▸ List.mem_singleton_self h
  exact ⟨hperm.symm, by simpa using (List.mem_filter.1 hmem).2⟩

/-! ### Runs -/

theorem Server.Exact.step (hs : s.Exact s.handlers) (e : Event) :
    (s.step io lib e).1.Exact (s.step io lib e).1.handlers := by
  cases e with
  | request id head =>
      simp only [Server.step, Server.request]
      split
      · exact hs
      split
      · exact hs
      split
      · exact hs
      next hnew hopen _ _ _ =>
        exact ⟨congrArg (· + 1) hs.counted, hs.registered, hs.running, by simp only; omega,
          hs.capacity, List.nodup_cons.2 ⟨hnew, hs.distinct⟩⟩
  | deliver id signal =>
      simp only [Server.step]
      split
      · next hfound =>
          have hout : Server.Exact { s with handlers := s.handlers.filter (!·.id == id) } _ :=
            hs.perm (taken_perm hfound).1
          exact (turn_deliver hout signal).exact
      · exact hs
  | upkeep e =>
      cases e with
      | exchange x =>
          simp only [Server.step, SandboxSupervisor.step]
          split <;> exact hs
      | _ => exact hs
  | close => exact hs.map (fun _ => rfl) registration_abort

theorem exact_run (ready : Bool) (events : List Event) :
    (Server.run io lib ready events).Exact (Server.run io lib ready events).handlers :=
  Runs.run_induction _ (P := fun s => s.Exact s.handlers) (fun _ e hs => hs.step e)
    (Server.start ready)
    ⟨rfl, .nil, .nil, Nat.zero_le _, Nat.zero_le _, List.nodup_nil⟩ events

theorem running_sublist (handlers : List Handler) :
    (handlers.filterMap Handler.running).Sublist
      ((handlers.filterMap Handler.registration).map Prod.fst) := by
  induction handlers with
  | nil => exact .slnil
  | cons h rest ih =>
      obtain ⟨id, url, aborted, destroyed, phase⟩ := h
      rcases phase with received | ⟨request, aborted | result⟩
      · exact ih
      · exact ih.cons_cons request.key
      · exact ih.cons request.key

/-- In whatever order requests arrive, go on, are cancelled and are lost: the count is
    that of the handlers and at most eight, the map of controllers has the attempts in
    progress and the supervisor's map those it works on, at most two and no attempt
    twice. -/
theorem admission_exact (io : Bodies) (lib : Library) (ready : Bool) (events : List Event) :
    let s := Server.run io lib ready events
    s.admitted = s.handlers.length ∧ s.admitted ≤ 8 ∧
      s.controllers.rows.Perm (s.handlers.filterMap Handler.registration) ∧
      s.supervisor.active.Perm (s.handlers.filterMap Handler.running) ∧
      (s.handlers.filterMap Handler.running).length ≤ 2 ∧
      (s.handlers.filterMap Handler.running).Nodup := by
  intro s
  have hs : s.Exact s.handlers := exact_run ready events
  refine ⟨hs.counted, hs.limit, hs.registered, hs.running, hs.running.length_eq ▸ hs.capacity,
    (running_sublist _).nodup ?_⟩
  exact (hs.registered.map Prod.fst).nodup_iff.1 s.controllers.nodup

/-- An execution in progress goes on, with its signals and its place in the map as they
    are, whatever happens to other requests, duplicates of it included, unless its key
    is cancelled or the server closes. -/
theorem execution_untouched {ready : Bool} {events : List Event} {e : Event} {entry : String × Nat}
    (hrun : Server.run io lib ready events = s) (hmem : h ∈ s.handlers)
    (hregistered : h.registration = some entry)
    (hother : ∀ signal, e ≠ .deliver h.id signal) (hclose : e ≠ .close)
    (hcancel : ∀ g ∈ s.handlers, e = .deliver g.id .ended → ¬ Cancels io s g entry) :
    h ∈ (s.step io lib e).1.handlers ∧ entry ∈ (s.step io lib e).1.controllers.rows := by
  have hs : s.Exact s.handlers := hrun ▸ exact_run ready events
  have hstays : h ∈ (s.step io lib e).1.handlers := by
    cases e with
    | request id head =>
        simp only [Server.step, Server.request]
        split
        · exact hmem
        split
        · exact hmem
        split
        · exact hmem
        · exact List.mem_cons_of_mem _ hmem
    | deliver id signal =>
        simp only [Server.step]
        split
        · next g hfound =>
            obtain ⟨hperm, rfl⟩ := taken_perm hfound
            have hothers : h ∈ s.handlers.filter (!·.id == g.id) :=
              (List.mem_cons.1 (hperm.mem_iff.1 hmem)).resolve_left fun heq =>
                hother signal (heq ▸ rfl)
            have hout : Server.Exact { s with handlers := s.handlers.filter (!·.id == g.id) } _ :=
              hs.perm hperm
            obtain hstays | ⟨rfl, other, hcancels, hsame⟩ :=
              (turn_deliver hout signal).others h hothers
            · exact hstays
            · obtain rfl := Option.some.inj (hregistered.symm.trans hsame)
              exact absurd hcancels (hcancel g (hperm.mem_iff.2 List.mem_cons_self) rfl)
        · exact hmem
    | upkeep e => cases e <;> exact hmem
    | close => exact absurd rfl hclose
  exact ⟨hstays, (hs.step e).registered.mem_iff.2 (List.mem_filterMap.2 ⟨h, hstays, hregistered⟩)⟩

namespace Sample

open ArenaCore.Sample

/-- Every body is the same attempt. -/
def bodies : Bodies :=
  ⟨fun _ => some (rawRequest .python), fun _ => none⟩

def posted : Head :=
  ⟨"POST", "/execute", some "application/json"⟩

/-- An attempt in progress, and a second request for it. -/
def duplicated : List Event :=
  [.request 0 posted, .deliver 0 .ended, .request 1 posted]

def original : Handler :=
  { id := 0, url := .execute, phase := .waiting (sandboxed .python) (.running false) }

end Sample

theorem execution_untouched_duplicate :
    let s := Server.run Sample.bodies ArenaCore.Sample.library true Sample.duplicated
    let next := (s.step Sample.bodies ArenaCore.Sample.library (.deliver 1 .ended)).1
    Sample.original ∈ next.handlers ∧
      ((ArenaCore.Sample.sandboxed .python).key, 0) ∈ next.controllers.rows := by
  refine execution_untouched rfl (List.mem_cons_of_mem _ List.mem_cons_self) rfl
    (fun _ h => by cases h) (fun h => by cases h) fun _ _ _ hcancels => ?_
  obtain ⟨received, -, -, hkey, -⟩ := hcancels
  cases hkey

end ListenSupervisor

end ArenaCore
