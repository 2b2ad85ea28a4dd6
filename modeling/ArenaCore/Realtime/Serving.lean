import ArenaCore.Lib.Feed
import ArenaCore.Realtime.Gateway
import ArenaCore.Store.ReplaySound

/-!
# Serving One Execution

The invariant of the gateway for one execution. What a client is sent for it is
a feed: acknowledgements and `execution_sync` messages are its marks, and every
event continues the item before it by one. The reason is that a cursor is
always where the last item was. `Serving` says so for the object in the map and
for the object a suspended poll holds, which is the same one unless the client
has unsubscribed: a command that would replace it waits for the poll, and a
poll does not start while a command is busy.

Attempts restart the numbers, so positions are compared lexicographically. In
that order a row only moves forward (`position_step`), and an answer that is
still on its way lies between the last item and the row.

## Main definitions

* `Item.position`, `Cursor.position`, `Execution.position`: Attempt and number.
* `Reached`: The row has come at least as far as a position.
* `Serving`: The invariant.

## Theorems

* `pollItems_continue`: What a poll sends continues the feed.
* `Serving.acknowledge`, `Serving.push`: The two steps that send items.
* `serving_step`, `serving_run`: The invariant along every run.
-/

namespace ArenaCore

open JobStore Feed

variable {id userId : Uuid} {d : Deployment} {calls : List Call} {app : Nat} {r : Replay}
  {asked : Cursor} {s : Store} {attempt after : Nat} {items : List Item} {g : Gateway}

/-! ### Positions -/

def Execution.position (row : Execution) : Position :=
  .of row.attempt row.lastSequence

def ExecutionSnapshot.position (snapshot : ExecutionSnapshot) : Position :=
  .of snapshot.attempt snapshot.lastSequence

def Cursor.position (cursor : Cursor) : Position :=
  .of cursor.attempt cursor.afterSequence

def PublicExecutionEvent.position (event : PublicExecutionEvent) : Position :=
  .of event.attempt event.sequence

namespace Item

def position : Item → Position
  | acknowledged result => result.snapshot.position
  | executionSync snapshot => snapshot.position
  | event e => e.position

/-- The items that tell the client where the execution is. -/
def isResync : Item → Bool
  | event _ => false
  | _ => true

/-- The order in which items may follow each other. -/
abbrev Follows : Item → Item → Prop :=
  Feed.Follows position isResync

end Item

/-! ### The row -/

namespace JobStore

variable {t : Moment} {j j' : Job} {d : Deployment} {op : Op}

theorem Quiet.position_le (h : Quiet d t op j j') : j.row.position ≤ j'.row.position := by
  refine Position.of_le_of.mpr (Or.inr ⟨h.attempt.symm, ?_⟩)
  cases h <;> first | exact Nat.le_refl _ | exact Nat.le_succ _

theorem Quiets.position_le (h : Quiets d t op j j') : j.row.position ≤ j'.row.position := by
  induction h with
  | refl => exact le_refl _
  | tail _ hlast ih => exact ih.trans hlast.position_le

theorem Grant.position_le {token : Uuid} (h : Grant t token j j') :
    j.row.position ≤ j'.row.position := by
  rw [h.result]
  exact Position.of_le_of.mpr (Or.inl (Nat.lt_succ_self _))

end JobStore

/-- A row only moves forward. -/
theorem position_step (d : Deployment) (s : Store) (call : Call) {j : Job}
    (hj : s.jobs.lookup id = some j) :
    ∃ j', (step d s call).1.jobs.lookup id = some j' ∧ j.row.position ≤ j'.row.position := by
  obtain ⟨_, _, hafter, heffect⟩ := step_effect_after d call hj
  cases heffect with
  | granted _ _ j' _ grant => exact ⟨j', hafter, grant.position_le⟩
  | quiet _ j' chain => exact ⟨j', hafter, Quiets.position_le chain⟩

/-- The row has come at least as far as a position. -/
def Reached (s : Store) (id : Uuid) (p : Position) : Prop :=
  ∃ j, s.jobs.lookup id = some j ∧ p ≤ j.row.position

theorem Reached.step {p : Position} (h : Reached s id p) (d : Deployment) (call : Call) :
    Reached (step d s call).1 id p := by
  rcases h with ⟨j, hj, hle⟩
  rcases position_step d s call hj with ⟨j', hj', hle'⟩
  exact ⟨j', hj', hle.trans hle'⟩

/-! ### Answers -/

/-- What is known of the answer a poll has for a cursor. -/
structure PollAnswer (asked : Cursor) (r : Replay) : Prop where
  ahead : asked.position ≤ r.snapshot.position
  events : r.replayAvailable = true →
    r.events.map PublicExecutionEvent.position = consecutive asked.position r.events.length ∧
      r.snapshot.position = .of asked.attempt (asked.afterSequence + r.events.length)

/-- A replay is about the row as it is. -/
theorem replay_position (h : replay d app userId id.text attempt after (Store.run d calls) = .ok r) :
    ∃ j, (Store.run d calls).jobs.lookup id = some j ∧ r.snapshot.position = j.row.position := by
  rcases replay_sound h with ⟨j, hj, _, hattempt, hlast, _⟩
  refine ⟨j, hj, ?_⟩
  unfold ExecutionSnapshot.position Execution.position
  rw [hattempt, hlast]

/-- The events of an answer are in order and end where its snapshot is. -/
def Replay.Ordered (r : Replay) : Prop :=
  (r.events.map PublicExecutionEvent.position).Pairwise (· < ·) ∧
    ∀ e ∈ r.events, e.position ≤ r.snapshot.position

theorem replay_ordered (h : replay d app userId id.text attempt after (Store.run d calls) = .ok r) :
    r.Ordered := by
  rcases replay_sound h with ⟨j, _, _, hattempt, _, havailable, hnone⟩
  cases htrue : r.replayAvailable with
  | false =>
      unfold Replay.Ordered
      rw [hnone htrue]
      exact ⟨List.Pairwise.nil, fun e he => by cases he⟩
  | true =>
      rcases havailable htrue with ⟨_, _, _, hnumbers, hattempts⟩
      constructor
      · have hsequences : r.events.Pairwise fun a b => a.sequence < b.sequence := by
          rw [← List.pairwise_map (f := fun e : PublicExecutionEvent => e.sequence), hnumbers]
          exact List.pairwise_lt_range'
        refine List.pairwise_map.mpr (hsequences.imp_of_mem fun ha hb hlt => ?_)
        refine Position.of_lt_of.mpr (Or.inr ⟨?_, hlt⟩)
        rw [hattempts _ ha, hattempts _ hb]
      · intro e he
        have hmem : e.sequence ∈ r.events.map (·.sequence) := List.mem_map_of_mem he
        rw [hnumbers, List.mem_range'_1] at hmem
        refine Position.of_le_of.mpr (Or.inr ⟨?_, by omega⟩)
        rw [hattempts e he, hattempt]

/-- The answer for a cursor the row has reached. -/
theorem pollAnswer_of_replay (hreached : Reached (Store.run d calls) id asked.position)
    (h : replay d app userId id.text asked.attempt asked.afterSequence (Store.run d calls) = .ok r) :
    PollAnswer asked r := by
  rcases replay_sound h with ⟨j, hj, _, hattempt, hlast, havailable, _⟩
  rcases replay_position h with ⟨i, hi, hposition⟩
  rcases hreached with ⟨k, hk, hle⟩
  obtain rfl : j = i := Option.some.inj (hj.symm.trans hi)
  obtain rfl : j = k := Option.some.inj (hj.symm.trans hk)
  refine ⟨hposition ▸ hle, fun htrue => ?_⟩
  rcases havailable htrue with ⟨hcursor, hafter, _, hnumbers, hattempts⟩
  have hlength : r.events.length = r.snapshot.lastSequence - asked.afterSequence := by
    rw [← List.length_map (fun e : PublicExecutionEvent => e.sequence), hnumbers, List.length_range']
  constructor
  · have hsplit : r.events.map PublicExecutionEvent.position
        = (r.events.map (·.sequence)).map (Position.of asked.attempt) := by
      rw [List.map_map]
      refine List.map_congr_left fun e he => ?_
      unfold PublicExecutionEvent.position
      rw [hattempts e he, hcursor]
      rfl
    rw [hsplit, hnumbers, hlength]
    rfl
  · unfold ExecutionSnapshot.position
    rw [hlength, hattempt, hcursor, hlast]
    congr 1
    omega

/-- What a poll sends continues the feed to where the snapshot is. -/
theorem pollItems_continue (h : PollAnswer asked r) {a : Item} (ha : a.position = asked.position) :
    (a :: Client.pollItems r).IsChain Item.Follows ∧
      ∀ z ∈ (a :: Client.pollItems r).getLast?, z.position = r.snapshot.position := by
  unfold Client.pollItems
  split
  · refine ⟨List.isChain_cons_cons.mpr ⟨?_, List.isChain_singleton _⟩, fun z hz => ?_⟩
    · exact ha.trans_le h.ahead
    · cases hz
      rfl
  · rename_i havailable
    rcases h.events (Bool.not_eq_false _ ▸ havailable) with ⟨hpositions, hlast⟩
    have hevents : (r.events.map Item.event).map Item.position
        = consecutive a.position (r.events.map Item.event).length := by
      rw [List.map_map, ha, List.length_map, ← hpositions]
      rfl
    refine ⟨isChain_events (fun e he => ?_) hevents, fun z hz => ?_⟩
    · rcases List.mem_map.mp he with ⟨_, _, rfl⟩
      rfl
    · rw [position_getLast hevents z hz, hlast, ha, List.length_map]
      rfl

theorem acknowledged_notMem_pollItems (r r' : Replay) :
    Item.acknowledged r' ∉ Client.pollItems r := by
  unfold Client.pollItems
  split <;> simp

/-! ### The invariant -/

/-- The last item was at a position. -/
def LastAt (items : List Item) (p : Position) : Prop :=
  ∃ item ∈ items.getLast?, item.position = p

/-- The object a suspended poll holds for a cursor. For the execution at hand
    it is where the last item was, and the map has no other. -/
structure Held (id : Uuid) (c : Client) (items : List Item) (cursor : Nat) (asked : Cursor) :
    Prop where
  allocated : cursor < c.allocated
  object : c.cursors cursor = asked
  last : asked.executionId = id.text → LastAt items asked.position
  only : asked.executionId = id.text →
    ∀ e ∈ c.subscriptions.entries, e.key = id.text → e.value = cursor

/-- Where a poll can be suspended. -/
def PollServing (id : Uuid) (s : Store) (c : Client) (items : List Item) : Option Poll → Prop
  | none => True
  | some .resolving => True
  | some (.replaying cursor _ asked) => Held id c items cursor asked
  | some (.replayed cursor _ asked result) => Held id c items cursor asked ∧
      ∀ r, result = .ok r → asked.executionId = id.text →
        PollAnswer asked r ∧ Reached s id r.snapshot.position

/-- Where a command can be suspended. Once it has waited for the poll there is
    none until it is done, so its answer stays ahead of what was sent. -/
def CommandServing (id : Uuid) (s : Store) (polling : Option Poll) (items : List Item) :
    Option Command → Prop
  | none => True
  | some (.waiting _ none) => True
  | some (.waiting _ (some _)) => polling = none
  | some (.resolving _) => polling = none
  | some (.replaying _) => polling = none
  | some (.replayed request result) => polling = none ∧
      ∀ r, result = .ok r → request.executionId = id.text →
        (∀ item ∈ items.getLast?, item.position ≤ r.snapshot.position) ∧
          Reached s id r.snapshot.position ∧ r.Ordered

/-- The gateway serves an execution: what was sent is a feed that starts with
    an acknowledgement, and every cursor for it is where the last item was. -/
structure Serving (d : Deployment) (id : Uuid) (s : Store) (c : Client) (items : List Item) :
    Prop where
  reachable : ∃ calls, s = Store.run d calls
  feed : items.IsChain Item.Follows
  first : ∀ item ∈ items.head?, ∃ r, item = .acknowledged r
  ordered : ∀ r, .acknowledged r ∈ items → r.Ordered
  behind : ∀ item ∈ items.getLast?, Reached s id item.position
  named : ∀ e ∈ c.subscriptions.entries,
    e.value < c.allocated ∧ (c.cursors e.value).executionId = e.key
  served : ∀ e ∈ c.subscriptions.entries, e.key = id.text →
    LastAt items (c.cursors e.value).position
  poll : PollServing id s c items c.polling
  command : CommandServing id s c.polling items c.command

/-- A command is at its wait while a poll is running, and the poll may do what
    it does. -/
theorem CommandServing.of_polling {polling : Option Poll} {command : Option Command}
    (h : CommandServing id s polling items command) (hpolling : polling.isSome = true)
    (polling' : Option Poll) (items' : List Item) :
    CommandServing id s polling' items' command := by
  have hsome : polling ≠ none := fun hnone => by rw [hnone] at hpolling; cases hpolling
  cases command with
  | none => trivial
  | some command =>
      cases command with
      | waiting _ settled =>
          cases settled with
          | none => trivial
          | some => exact absurd h hsome
      | resolving | replaying => exact absurd h hsome
      | replayed => exact absurd h.1 hsome

namespace Serving

variable {d : Deployment} {id : Uuid} {s : Store} {c : Client} {items : List Item}
  {request asked : Cursor} {result : Except Error Replay} {cursor stamp : Nat} {r : Replay}

section

variable (h : Serving d id s c items)

include h

/-- A transaction moves the row forward. -/
theorem store (call : Call) : Serving d id (ArenaCore.step d s call).1 c items := by
  rcases h with ⟨⟨calls, rfl⟩, hfeed, hfirst, hordered, hbehind, hnamed, hserved, hpoll, hcommand⟩
  refine ⟨⟨calls ++ [call], ?_⟩, hfeed, hfirst, hordered,
    fun item hi => (hbehind item hi).step d call, hnamed, hserved, ?_, ?_⟩
  · rw [Store.run, Store.run, Runs.run_append]
    rfl
  · cases hp : c.polling with
    | none => trivial
    | some p =>
        rw [hp] at hpoll
        cases p with
        | resolving => trivial
        | replaying => exact hpoll
        | replayed =>
            refine ⟨hpoll.1, fun r hr hid => ?_⟩
            rcases hpoll.2 r hr hid with ⟨hanswer, hreached⟩
            exact ⟨hanswer, hreached.step d call⟩
  · cases hc : c.command with
    | none => trivial
    | some p =>
        rw [hc] at hcommand
        cases p with
        | waiting _ settled => cases settled <;> exact hcommand
        | resolving => exact hcommand
        | replaying => exact hcommand
        | replayed =>
            refine ⟨hcommand.1, fun r hr hid => ?_⟩
            rcases hcommand.2 r hr hid with ⟨hlast, hreached, hordered⟩
            exact ⟨hlast, hreached.step d call, hordered⟩

/-- A change that leaves the cursor objects alone, adds nothing to the map and
    does not move the poll. -/
theorem frame {c' : Client} (hcursors : c'.cursors = c.cursors)
    (hallocated : c'.allocated = c.allocated)
    (hentries : ∀ e ∈ c'.subscriptions.entries, e ∈ c.subscriptions.entries)
    (hpolling : c'.polling = c.polling ∨ c'.polling = none ∨ c'.polling = some .resolving)
    (hcommand : CommandServing id s c'.polling items c'.command) : Serving d id s c' items := by
  have hheld : ∀ cursor asked, Held id c items cursor asked → Held id c' items cursor asked :=
    fun cursor asked held => ⟨hallocated ▸ held.allocated, hcursors ▸ held.object, held.last,
      fun hid e he => held.only hid e (hentries e he)⟩
  refine ⟨h.reachable, h.feed, h.first, h.ordered, h.behind, fun e he => ?_, fun e he hkey => ?_, ?_,
    hcommand⟩
  · rw [hcursors, hallocated]
    exact h.named e (hentries e he)
  · rw [hcursors]
    exact h.served e (hentries e he) hkey
  · have hpoll := h.poll
    rcases hpolling with hsame | hnone | hresolving
    · rw [hsame]
      cases hp : c.polling with
      | none => trivial
      | some p =>
          rw [hp] at hpoll
          cases p with
          | resolving => trivial
          | replaying => exact hheld _ _ hpoll
          | replayed => exact ⟨hheld _ _ hpoll.1, hpoll.2⟩
    · rw [hnone]
      trivial
    · rw [hresolving]
      trivial

theorem disconnect : Serving d id s c.disconnect items :=
  h.frame rfl rfl (fun _ he => he) (Or.inl rfl) h.command

/-- A command may be given up, or be suspended where it may be. -/
theorem setCommand (command : Option Command)
    (hcommand : CommandServing id s c.polling items command) :
    Serving d id s { c with command := command } items :=
  h.frame rfl rfl (fun _ he => he) (Or.inl rfl) hcommand

theorem settlePoll (outcome : Except Error Unit) : Serving d id s (c.settlePoll outcome) items := by
  have hcommand : CommandServing id s none items (c.settlePoll outcome).command := by
    have hold := h.command
    cases hc : c.command with
    | none => cases outcome <;> simp only [Client.settlePoll, Client.disconnect, hc] <;> trivial
    | some command =>
        rw [hc] at hold
        cases command with
        | waiting _ settled =>
            -- the one command that is told how the poll ended
            cases settled <;> cases outcome <;>
              simp only [Client.settlePoll, Client.disconnect, hc] <;> rfl
        | resolving | replaying =>
            cases outcome <;> simp only [Client.settlePoll, Client.disconnect, hc] <;> rfl
        | replayed =>
            cases outcome <;> simp only [Client.settlePoll, Client.disconnect, hc] <;>
              exact ⟨rfl, hold.2⟩
  cases outcome with
  | ok | error => exact h.frame rfl rfl (fun _ he => he) (Or.inr (Or.inl rfl)) hcommand

/-- The loop goes on with a cursor of the map. -/
theorem nextCursor (hpolling : c.polling.isSome = true) (seen : Nat) :
    Serving d id s (c.nextCursor seen) items := by
  unfold Client.nextCursor
  cases hnext : c.subscriptions.next? seen with
  | none => exact h.settlePoll (.ok ())
  | some entry =>
      have hentry := OrderedMap.next?_mem hnext
      rcases h.named entry hentry with ⟨hallocated, hname⟩
      refine ⟨h.reachable, h.feed, h.first, h.ordered, h.behind, h.named, h.served, ?_, ?_⟩
      · refine ⟨hallocated, rfl, fun hid => h.served entry hentry (hname ▸ hid), ?_⟩
        intro hid e he hkey
        rw [OrderedMap.entry_unique he hentry (hkey.trans (hname ▸ hid).symm)]
      · exact h.command.of_polling hpolling _ _

/-- The database answers a command. -/
theorem commandAnswer (hcommand : c.command = some (.replaying request))
    (hresult : ∀ r, result = .ok r → ∃ app,
      replay d app c.userId request.executionId request.attempt request.afterSequence s = .ok r) :
    Serving d id s { c with command := some (.replayed request result) } items := by
  have hidle : c.polling = none := by
    have hold := h.command
    rwa [hcommand] at hold
  refine h.setCommand _ ⟨hidle, fun r hr hid => ?_⟩
  rcases hresult r hr with ⟨app, hreplay⟩
  rcases h.reachable with ⟨calls, rfl⟩
  rw [hid] at hreplay
  rcases replay_position hreplay with ⟨j, hj, hposition⟩
  refine ⟨fun item hitem => ?_, ⟨j, hj, hposition.le⟩, replay_ordered hreplay⟩
  rcases h.behind item hitem with ⟨i, hi, hle⟩
  obtain rfl : i = j := Option.some.inj (hi.symm.trans hj)
  exact hle.trans hposition.ge

/-- The database answers a poll. -/
theorem pollAnswer (hpolling : c.polling = some (.replaying cursor stamp asked))
    (hresult : ∀ r, result = .ok r → ∃ app,
      replay d app c.userId asked.executionId asked.attempt asked.afterSequence s = .ok r) :
    Serving d id s { c with polling := some (.replayed cursor stamp asked result) } items := by
  have hheld : Held id c items cursor asked := by
    have hold := h.poll
    rwa [hpolling] at hold
  refine ⟨h.reachable, h.feed, h.first, h.ordered, h.behind, h.named, h.served,
    ⟨?_, fun r hr hid => ?_⟩, ?_⟩
  · exact ⟨hheld.allocated, hheld.object, hheld.last, hheld.only⟩
  · rcases hresult r hr with ⟨app, hreplay⟩
    rcases hheld.last hid with ⟨item, hitem, hposition⟩
    have hreached := hposition ▸ h.behind item hitem
    rcases h.reachable with ⟨calls, rfl⟩
    rw [hid] at hreplay
    rcases replay_position hreplay with ⟨j, hj, hsnapshot⟩
    exact ⟨pollAnswer_of_replay hreached hreplay, j, hj, hsnapshot.le⟩
  · exact h.command.of_polling (by rw [hpolling]; rfl) _ _

end

/-- The items a client is sent for one execution. -/
def own (id : Uuid) (executionId : String) (items : List Item) : List Item :=
  if executionId = id.text then items else []

/-- A command is acknowledged. -/
theorem acknowledge (h : Serving d id s c items)
    (hcommand : c.command = some (.replayed request (.ok r))) :
    Serving d id s
      { c with
        command := none,
        subscriptions := c.subscriptions.set request.executionId c.allocated,
        cursors := Function.update c.cursors c.allocated
          (Client.cursorOf request.executionId r.snapshot),
        allocated := c.allocated + 1 }
      (items ++ own id request.executionId [.acknowledged r]) := by
  have hold := h.command
  rw [hcommand] at hold
  rcases hold with ⟨hidle, hanswer⟩
  have hnamed : ∀ e ∈ (c.subscriptions.set request.executionId c.allocated).entries,
      e.value < c.allocated + 1 ∧ (Function.update c.cursors c.allocated
        (Client.cursorOf request.executionId r.snapshot) e.value).executionId = e.key := by
    intro e he
    rcases OrderedMap.mem_set he with ⟨hkey, hvalue⟩ | ⟨hmem, _⟩
    · rw [hvalue, hkey, Function.update_self]
      exact ⟨Nat.lt_succ_self _, rfl⟩
    · rcases h.named e hmem with ⟨hlt, hname⟩
      rw [Function.update_of_ne (Nat.ne_of_lt hlt)]
      exact ⟨Nat.lt_succ_of_lt hlt, hname⟩
  have hpoll : ∀ c' : Client, ∀ items', c'.polling = c.polling →
      PollServing id s c' items' c'.polling := by
    intro c' items' hsame
    rw [hsame, hidle]
    trivial
  unfold own
  split
  · rename_i hid
    rcases hanswer r rfl hid with ⟨hlast, hreached, hordered⟩
    have hend : (items ++ [Item.acknowledged r]).getLast? = some (.acknowledged r) :=
      List.getLast?_concat
    refine ⟨h.reachable, ?_, ?_, ?_, ?_, hnamed, ?_, hpoll _ _ rfl, trivial⟩
    · refine List.isChain_append.mpr ⟨h.feed, List.isChain_singleton _, fun x hx y hy => ?_⟩
      cases hy
      exact hlast x hx
    · intro item hitem
      cases items with
      | nil =>
          cases hitem
          exact ⟨r, rfl⟩
      | cons a rest => exact h.first item hitem
    · intro r' hr'
      rcases List.mem_append.mp hr' with hold | hnew
      · exact h.ordered r' hold
      · cases List.mem_singleton.mp hnew
        exact hordered
    · intro item hitem
      rw [hend] at hitem
      cases hitem
      exact hreached
    · intro e he hkey
      rcases OrderedMap.mem_set he with ⟨_, hvalue⟩ | ⟨_, hother⟩
      · refine ⟨_, hend, ?_⟩
        simp only [hvalue, Function.update_self]
        rfl
      · exact absurd (hkey.trans hid.symm) hother
  · rename_i hother
    rw [List.append_nil]
    refine ⟨h.reachable, h.feed, h.first, h.ordered, h.behind, hnamed, ?_, hpoll _ _ rfl, trivial⟩
    intro e he hkey
    rcases OrderedMap.mem_set he with ⟨hname, _⟩ | ⟨hmem, _⟩
    · exact absurd (hname.symm.trans hkey) hother
    · have hlt := (h.named e hmem).1
      simp only [Function.update_of_ne (Nat.ne_of_lt hlt)]
      exact h.served e hmem hkey

/-- A poll sends what it was answered and moves the cursor object on. -/
theorem push (h : Serving d id s c items)
    (hpolling : c.polling = some (.replayed cursor stamp asked (.ok r))) :
    Serving d id s
      { c with
        cursors := Function.update c.cursors cursor
          (Client.cursorOf (c.cursors cursor).executionId r.snapshot),
        polling := some .resolving }
      (items ++ own id asked.executionId (Client.pollItems r)) := by
  have hold := h.poll
  rw [hpolling] at hold
  rcases hold with ⟨hheld, hanswer⟩
  have hobject : (c.cursors cursor).executionId = asked.executionId := by rw [hheld.object]
  have hnamed : ∀ e ∈ c.subscriptions.entries, e.value < c.allocated ∧
      (Function.update c.cursors cursor
        (Client.cursorOf (c.cursors cursor).executionId r.snapshot) e.value).executionId = e.key := by
    intro e he
    rcases h.named e he with ⟨hlt, hname⟩
    refine ⟨hlt, ?_⟩
    rcases eq_or_ne e.value cursor with heq | hne
    · rw [heq, Function.update_self, ← hname, heq]
      rfl
    · rw [Function.update_of_ne hne, hname]
  have hcommand := fun items' =>
    h.command.of_polling (by rw [hpolling]; rfl) (some .resolving) items'
  unfold own
  split
  · rename_i hid
    rcases hanswer r rfl hid with ⟨hanswered, hreached⟩
    rcases hheld.last hid with ⟨a, ha, hposition⟩
    rcases pollItems_continue hanswered hposition with ⟨hmore, hend⟩
    rcases append h.feed ha hmore with ⟨hfeed, hlast⟩
    refine ⟨h.reachable, hfeed, ?_, ?_, ?_, hnamed, ?_, trivial, hcommand _⟩
    · intro item hitem
      cases items with
      | nil => cases ha
      | cons b rest => exact h.first item hitem
    · intro r' hr'
      rcases List.mem_append.mp hr' with hold | hnew
      · exact h.ordered r' hold
      · exact absurd hnew (acknowledged_notMem_pollItems r r')
    · intro item hitem
      rw [hlast] at hitem
      rw [hend item hitem]
      exact hreached
    · intro e he hkey
      rw [hheld.only hid e he hkey]
      simp only [Function.update_self]
      rcases hz : (a :: Client.pollItems r).getLast? with _ | z
      · cases List.getLast?_eq_none_iff.mp hz
      · exact ⟨z, hlast.trans hz, hend z hz⟩
  · rename_i hother
    rw [List.append_nil]
    refine ⟨h.reachable, h.feed, h.first, h.ordered, h.behind, hnamed, ?_, trivial, hcommand _⟩
    intro e he hkey
    -- the object belongs to another subscription
    have hne : e.value ≠ cursor := by
      intro heq
      refine hother ?_
      rw [← hobject, ← heq, (h.named e he).2, hkey]
    simp only [Function.update_of_ne hne]
    exact h.served e he hkey

end Serving

/-! ### Steps and runs -/

theorem received_append (executionId : String) (first second : List Message) :
    received executionId (first ++ second)
      = received executionId first ++ received executionId second :=
  List.filterMap_append

/-- Items sent under one name. -/
theorem received_named (own executionId : String) (items : List Item) :
    received own (items.map (.item executionId)) = if executionId = own then items else [] := by
  unfold received
  rw [List.filterMap_map]
  split
  · next hname => simp only [Function.comp_def, hname, if_true, List.filterMap_some]
  · next hname => simp only [Function.comp_def, hname, if_false, List.filterMap_none]

theorem received_items (id : Uuid) (executionId : String) (items : List Item) :
    received id.text (items.map (.item executionId)) = Serving.own id executionId items :=
  received_named id.text executionId items

/-- Refusals are about no execution. -/
theorem received_refused (executionId : String) (c : Client) (code : ReplyCode) :
    received executionId (c.send [.refused code]) = [] := by
  unfold Client.send
  split <;> rfl

/-- What an answer was read from. -/
theorem Gateway.answer_eq_ok {fault : Option Error} (h : g.answer d app fault asked = .ok r) :
    replay d app g.client.userId asked.executionId asked.attempt asked.afterSequence g.store
      = .ok r := by
  cases fault with
  | none => exact h
  | some e => cases h

/-- What serving means after a step that returns a client and messages. -/
def ServingAfter (d : Deployment) (id : Uuid) (s : Store) (items : List Item)
    (result : Client × List Message) : Prop :=
  Serving d id s result.1 (items ++ received id.text result.2)

namespace Serving

variable {d : Deployment} {id : Uuid} {s : Store} {c : Client} {items : List Item}

section

variable (h : Serving d id s c items)

include h

theorem silent : ServingAfter d id s items (c, []) := by
  unfold ServingAfter
  rw [show received id.text [] = [] from rfl, List.append_nil]
  exact h

theorem refused (c' : Client) (code : ReplyCode) :
    ServingAfter d id s items (c, c'.send [.refused code]) := by
  unfold ServingAfter
  rw [received_refused, List.append_nil]
  exact h

theorem failCommand (e : Error) : ServingAfter d id s items (c.failCommand e) :=
  (h.setCommand none trivial).refused c _

theorem subscribeExecution (now : Nat) (ack : Bool) (input : Option SubscriptionInput) :
    ServingAfter d id s items (c.subscribeExecution now ack input) := by
  unfold Client.subscribeExecution
  split
  · exact h.disconnect.silent
  -- the window and the count are of no concern
  generalize hcounted : (if 60000 ≤ now - c.window then { c with window := now, requests := 0 }
    else c : Client) = c₁
  have h₁ : Serving d id s { c₁ with requests := c₁.requests + 1 } items := by
    rw [← hcounted]
    split <;> exact h.frame rfl rfl (fun _ he => he) (Or.inl rfl) h.command
  simp only []
  split
  · exact h₁.refused _ _
  split
  · exact h₁.refused _ _
  rename_i request _
  split
  · exact h₁.refused _ _
  refine (h₁.setCommand _ ?_).silent
  cases hp : c₁.polling with
  | none => rfl
  | some p => trivial

theorem commandPolled : ServingAfter d id s items c.commandPolled := by
  unfold Client.commandPolled
  split
  · exact h.failCommand _
  · rename_i request hc
    have hold := h.command
    rw [hc] at hold
    split
    · exact (h.setCommand none trivial).silent
    · exact (h.setCommand (some (.resolving request)) hold).silent
  · exact h.silent

theorem commandResolved (principal : Except Error (Option Uuid)) :
    ServingAfter d id s items (c.commandResolved principal) := by
  unfold Client.commandResolved
  split
  · rename_i request hc
    have hold := h.command
    rw [hc] at hold
    split
    · exact h.failCommand _
    split
    · exact (h.disconnect.setCommand none trivial).silent
    · exact (h.setCommand (some (.replaying request)) hold).silent
  · exact h.silent

theorem commandReplayed : ServingAfter d id s items c.commandReplayed := by
  unfold Client.commandReplayed
  split
  · exact h.failCommand _
  · rename_i request r hc
    simp only []
    split
    · exact (h.setCommand none trivial).silent
    · have hack := h.acknowledge hc
      rw [← received_items] at hack
      exact hack
  · exact h.silent

theorem unsubscribeExecution (name : Option String) :
    Serving d id s (c.unsubscribeExecution name) items := by
  cases name with
  | none => exact h
  | some name => exact h.frame rfl rfl (fun _ he => OrderedMap.mem_delete he) (Or.inl rfl) h.command

theorem startPoll : Serving d id s c.startPoll items := by
  unfold Client.startPoll
  split
  · exact h
  · rename_i hfree
    simp only [not_or, Client.commandBusy, Bool.not_eq_true, Option.isSome_eq_false_iff,
      Option.isNone_iff_eq_none] at hfree
    refine h.frame rfl rfl (fun _ he => he) (Or.inr (Or.inr rfl)) ?_
    simp only [hfree.2.1]
    trivial

theorem pollResolved (principal : Except Error (Option Uuid)) :
    Serving d id s (c.pollResolved principal) items := by
  unfold Client.pollResolved
  split
  · rename_i hp
    split
    · exact h.settlePoll _
    split
    · exact h.disconnect.settlePoll _
    · exact h.nextCursor (by rw [hp]; rfl) 0
  · exact h

theorem pollReplayed (writable : Bool) : ServingAfter d id s items (c.pollReplayed writable) := by
  unfold Client.pollReplayed
  split
  · exact (h.settlePoll _).silent
  · rename_i cursor stamp asked r hp
    split
    · exact (h.settlePoll _).silent
    split
    · exact (h.disconnect.settlePoll _).silent
    · have hpush := (h.push hp).nextCursor rfl stamp
      rw [← received_items] at hpush
      exact hpush
  · exact h.silent

end

end Serving

/-- The gateway goes on serving. -/
theorem serving_step (h : Serving d id g.store g.client items) (input : Gateway.Input) :
    Serving d id (g.step d input).1.store (g.step d input).1.client
      (items ++ received id.text (g.step d input).2) := by
  cases input with
  | store call => exact (h.store call).silent
  | subscribe now ack input =>
      simp only [Gateway.step]
      split
      · exact h.silent
      · exact h.subscribeExecution now ack input
  | unsubscribe name =>
      simp only [Gateway.step]
      split
      · exact h.silent
      · exact (h.unsubscribeExecution name).silent
  | disconnect => exact h.disconnect.silent
  | commandPolled => exact h.commandPolled
  | commandResolved principal => exact h.commandResolved principal
  | commandReplay app fault =>
      simp only [Gateway.step]
      split
      · rename_i request hc
        exact (h.commandAnswer hc fun r hr => ⟨app, Gateway.answer_eq_ok hr⟩).silent
      · exact h.silent
  | commandReplayed => exact h.commandReplayed
  | startPoll => exact h.startPoll.silent
  | pollResolved principal => exact (h.pollResolved principal).silent
  | pollReplay app fault =>
      simp only [Gateway.step]
      split
      · rename_i cursor stamp asked hp
        exact (h.pollAnswer hp fun r hr => ⟨app, Gateway.answer_eq_ok hr⟩).silent
      · exact h.silent
  | pollReplayed writable => exact h.pollReplayed writable

theorem serving_connected (d : Deployment) (id userId : Uuid) (window : Nat) :
    Serving d id (Gateway.connected userId window).store (Gateway.connected userId window).client
      [] := by
  refine ⟨⟨[], rfl⟩, List.isChain_nil, ?_, ?_, ?_, ?_, ?_, trivial, trivial⟩ <;> intro _ h <;> cases h

/-- It serves along every run. -/
theorem serving_run (d : Deployment) (id userId : Uuid) (window : Nat)
    (inputs : List Gateway.Input) :
    Serving d id (Gateway.run d userId window inputs).store
      (Gateway.run d userId window inputs).client
      (received id.text (Gateway.sent d userId window inputs)) := by
  have hrun := Runs.run_outputs_induction (Gateway.step d)
    (P := fun g outs => Serving d id g.store g.client (received id.text outs.flatten))
    (fun g outs input h => ?_) inputs (Gateway.connected userId window) []
    (serving_connected d id userId window)
  · rwa [List.nil_append] at hrun
  · rw [List.flatten_append, received_append, List.flatten_singleton]
    exact serving_step h input

end ArenaCore
