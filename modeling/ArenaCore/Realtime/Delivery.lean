import ArenaCore.Realtime.Serving

/-!
# Delivery Without Gap or Duplicate

What the feed of an execution means to a client. Events between two
resynchronisations are numbered on from the first, and none comes twice, since
the positions of a feed only grow. That a client is up to date after a poll
pass is squeezed from both sides: the answer was read after the pass began, so
it is not behind the row as it was then, and nothing that is sent is ahead of
the row as it is at the end.

## Main definitions

* `FreshPoll`: An answer that is not older than a position.

## Theorems

* `polling_step`: Only the database gives a poll its answer.
* `freshPoll_run`: Answers read after a moment are from then on.
* `lastAt_of_served`: Serving a subscription ends at the answer.
* `gateway_delivery`: No gap, no duplicate, and up to date after a pass.
-/

namespace ArenaCore

open JobStore Feed

variable {d : Deployment} {id : Uuid} {p : Position} {g : Gateway} {userId : Uuid} {window : Nat}
  {r : Replay} {item : Item} {snapshot : ExecutionSnapshot} {items before : List Item}

/-! ### A pass without writes -/

/-- A poll with an answer for the execution has one from a row that had come as
    far as a position. -/
def FreshPoll (id : Uuid) (p : Position) (polling : Option Poll) : Prop :=
  ∀ cursor stamp asked r, polling = some (.replayed cursor stamp asked (.ok r)) →
    asked.executionId = id.text → p ≤ r.snapshot.position

/-- A poll that is not suspended at an answer. -/
def Unanswered (polling : Option Poll) : Prop :=
  ∀ cursor stamp asked result, polling ≠ some (.replayed cursor stamp asked result)

theorem settlePoll_polling (c : Client) (outcome : Except Error Unit) :
    (c.settlePoll outcome).polling = none := by
  cases outcome <;> rfl

theorem unanswered_settlePoll (c : Client) (outcome : Except Error Unit) :
    Unanswered (c.settlePoll outcome).polling := by
  intro _ _ _ _ h
  rw [settlePoll_polling] at h
  cases h

theorem unanswered_nextCursor (c : Client) (seen : Nat) :
    Unanswered (c.nextCursor seen).polling := by
  unfold Client.nextCursor
  split
  · exact unanswered_settlePoll c _
  · intro _ _ _ _ h
    cases h

/-- Only the database gives a poll its answer. -/
theorem polling_step (d : Deployment) (g : Gateway) (input : Gateway.Input)
    (hinput : ∀ app fault, input ≠ .pollReplay app fault) :
    (g.step d input).1.client.polling = g.client.polling ∨
      Unanswered (g.step d input).1.client.polling := by
  cases input with
  | store | disconnect => exact Or.inl rfl
  | subscribe now ack input =>
      simp only [Gateway.step]
      split
      · exact Or.inl rfl
      · left
        simp only [Gateway.withClient, Client.subscribeExecution]
        repeat' split
        all_goals rfl
  | unsubscribe name =>
      simp only [Gateway.step]
      split
      · exact Or.inl rfl
      · cases name <;> exact Or.inl rfl
  | commandPolled =>
      left
      simp only [Gateway.step, Gateway.withClient, Client.commandPolled]
      repeat' split
      all_goals rfl
  | commandResolved principal =>
      left
      simp only [Gateway.step, Gateway.withClient, Client.commandResolved]
      repeat' split
      all_goals rfl
  | commandReplay app fault =>
      left
      simp only [Gateway.step]
      split <;> rfl
  | commandReplayed =>
      left
      simp only [Gateway.step, Gateway.withClient, Client.commandReplayed]
      repeat' split
      all_goals rfl
  | startPoll =>
      simp only [Gateway.step, Gateway.withClient, Client.startPoll]
      split
      · exact Or.inl rfl
      · right
        intro _ _ _ _ h
        cases h
  | pollResolved principal =>
      simp only [Gateway.step, Gateway.withClient, Client.pollResolved]
      split
      · right
        split
        · exact unanswered_settlePoll _ _
        split
        · exact unanswered_settlePoll _ _
        · exact unanswered_nextCursor _ _
      · exact Or.inl rfl
  | pollReplay app fault => exact absurd rfl (hinput app fault)
  | pollReplayed writable =>
      simp only [Gateway.step, Gateway.withClient, Client.pollReplayed]
      split
      · exact Or.inr (unanswered_settlePoll _ _)
      · right
        split
        · exact unanswered_settlePoll _ _
        split
        · exact unanswered_settlePoll _ _
        · exact unanswered_nextCursor _ _
      · exact Or.inl rfl

/-- Nothing the socket does moves the row. -/
theorem reached_step (h : Reached g.store id p) (input : Gateway.Input) :
    Reached (g.step d input).1.store id p := by
  cases input with
  | store call => exact h.step d call
  | subscribe | unsubscribe | commandReplay | pollReplay =>
      simp only [Gateway.step]
      split <;> exact h
  | _ => exact h

/-- From the moment the row is somewhere, answers are from there on. -/
theorem freshPoll_step (hreachable : ∃ calls, g.store = Store.run d calls)
    (hreached : Reached g.store id p) (h : FreshPoll id p g.client.polling) (input : Gateway.Input) :
    FreshPoll id p (g.step d input).1.client.polling := by
  by_cases hinput : ∃ app fault, input = .pollReplay app fault
  · rcases hinput with ⟨app, fault, rfl⟩
    simp only [Gateway.step]
    split
    · intro cursor stamp asked r hp hid
      simp only [Option.some.injEq, Poll.replayed.injEq] at hp
      rcases hp with ⟨rfl, rfl, rfl, hanswer⟩
      have hreplay := Gateway.answer_eq_ok hanswer
      rcases hreachable with ⟨calls, hcalls⟩
      rw [hid, hcalls] at hreplay
      rcases replay_position hreplay with ⟨j, hj, hposition⟩
      rcases hreached with ⟨i, hi, hle⟩
      rw [hcalls] at hi
      obtain rfl : i = j := Option.some.inj (hi.symm.trans hj)
      exact hle.trans hposition.ge
    · exact h
  · push Not at hinput
    rcases polling_step d g input hinput with hsame | hunanswered
    · rw [hsame]
      exact h
    · intro cursor stamp asked r hp _
      exact absurd hp (hunanswered cursor stamp asked _)

theorem Gateway.sent_append (d : Deployment) (userId : Uuid) (window : Nat)
    (before later : List Gateway.Input) :
    Gateway.sent d userId window (before ++ later) = Gateway.sent d userId window before
      ++ (Runs.outputs (Gateway.step d) (Gateway.run d userId window before) later).flatten := by
  unfold Gateway.sent Gateway.run
  rw [Runs.outputs_append, List.flatten_append]

theorem Gateway.run_concat (d : Deployment) (userId : Uuid) (window : Nat)
    (before : List Gateway.Input) (input : Gateway.Input) :
    Gateway.run d userId window (before ++ [input])
      = ((Gateway.run d userId window before).step d input).1 := by
  unfold Gateway.run
  rw [Runs.run_append]
  rfl

/-- Answers read after a poll has started are no older than that. -/
theorem freshPoll_run {before : List Gateway.Input}
    (hreached : Reached (Gateway.run d userId window before).store id p)
    (hfresh : FreshPoll id p (Gateway.run d userId window before).client.polling)
    (later : List Gateway.Input) :
    FreshPoll id p (Gateway.run d userId window (before ++ later)).client.polling ∧
      Reached (Gateway.run d userId window (before ++ later)).store id p := by
  induction later using List.reverseRecOn with
  | nil =>
      rw [List.append_nil]
      exact ⟨hfresh, hreached⟩
  | append_singleton later input ih =>
      rw [← List.append_assoc, Gateway.run_concat]
      have hserving := serving_run d id userId window (before ++ later)
      exact ⟨freshPoll_step hserving.reachable ih.2 ih.1 input, reached_step ih.2 input⟩

/-- What a poll sends when it serves a subscription ends at its answer. -/
theorem lastAt_of_served {inputs : List Gateway.Input} {cursor stamp : Nat} {asked : Cursor}
    (hconnected : (Gateway.run d userId window inputs).client.connected = true)
    (hpolling : (Gateway.run d userId window inputs).client.polling
      = some (.replayed cursor stamp asked (.ok r))) (hid : asked.executionId = id.text) :
    LastAt (received id.text (Gateway.sent d userId window (inputs ++ [.pollReplayed true])))
      r.snapshot.position := by
  have hserving := serving_run d id userId window inputs
  have hpoll := hserving.poll
  rw [hpolling] at hpoll
  rcases hpoll.1.last hid with ⟨a, ha, hposition⟩
  rcases pollItems_continue (hpoll.2 r rfl hid).1 hposition with ⟨hmore, hend⟩
  rcases append hserving.feed ha hmore with ⟨_, hlast⟩
  have hsent : received id.text (Gateway.sent d userId window (inputs ++ [.pollReplayed true]))
      = received id.text (Gateway.sent d userId window inputs) ++ Client.pollItems r := by
    rw [Gateway.sent_append, received_append]
    simp only [Runs.outputs, Gateway.step, Gateway.withClient, Client.pollReplayed, hpolling,
      hconnected, List.flatten_cons, List.flatten_nil, List.append_nil, reduceCtorEq, if_false,
      received_items, Serving.own, hid, if_true]
  rcases hz : (a :: Client.pollItems r).getLast? with _ | z
  · cases List.getLast?_eq_none_iff.mp hz
  · refine ⟨z, ?_, hend z hz⟩
    rw [hsent, hlast]
    exact hz

/-! ### The statement -/

/-- The snapshot of a resynchronisation. -/
def Item.snapshot? : Item → Option ExecutionSnapshot
  | acknowledged r => some r.snapshot
  | executionSync snapshot => some snapshot
  | event _ => none

/-- The event an item is. -/
def Item.event? : Item → Option PublicExecutionEvent
  | event e => some e
  | _ => none

theorem Item.position_of_snapshot (h : item.snapshot? = some snapshot) :
    item.position = snapshot.position := by
  cases item <;> cases h <;> rfl

theorem Item.event?_eq_some {e : PublicExecutionEvent} (h : item.event? = some e) :
    item = .event e := by
  cases item <;> cases h
  rfl

/-- Events after a resynchronisation carry its attempt and are numbered on. -/
theorem events_of_feed {after : List Item} {resync : Item} {events : List PublicExecutionEvent}
    (hfeed : items.IsChain Item.Follows)
    (hitems : items = before ++ resync :: (events.map .event ++ after))
    (hsnapshot : resync.snapshot? = some snapshot) :
    (∀ e ∈ events, e.attempt = snapshot.attempt) ∧
      events.map (·.sequence) = List.range' (snapshot.lastSequence + 1) events.length := by
  rw [hitems] at hfeed
  have hsuffix := (List.isChain_append.mp hfeed).2.1
  rw [← List.cons_append] at hsuffix
  have hchain := (List.isChain_append.mp hsuffix).1
  have hmarks : ∀ item ∈ events.map Item.event, item.isResync = false := by
    intro item hitem
    rcases List.mem_map.mp hitem with ⟨_, _, rfl⟩
    rfl
  have hpositions := positions_of_events hmarks hchain
  rw [List.map_map, List.length_map, Item.position_of_snapshot hsnapshot] at hpositions
  constructor
  · intro e he
    have hmem : e.position ∈ consecutive snapshot.position events.length := by
      rw [← hpositions]
      exact List.mem_map_of_mem he
    rcases List.mem_map.mp hmem with ⟨n, _, hn⟩
    exact (congrArg Position.epoch hn).symm
  · have hnumbers := congrArg (List.map Position.number) hpositions
    rw [consecutive, List.map_map, List.map_map] at hnumbers
    exact hnumbers.trans (List.map_id _)

/-- Within a subscription no event comes twice. -/
theorem nodup_of_feed {rest : List Item} (hfeed : items.IsChain Item.Follows)
    (hitems : items = before ++ .acknowledged r :: rest) (hordered : r.Ordered) :
    ((r.events ++ rest.filterMap Item.event?).map PublicExecutionEvent.position).Nodup := by
  rw [hitems] at hfeed
  rcases List.pairwise_cons.mp (pairwise (List.isChain_append.mp hfeed).2.1) with ⟨hlater, hrest⟩
  have hpushed : (rest.filterMap Item.event?).Pairwise fun a b => a.position < b.position := by
    refine List.pairwise_filterMap.mpr (hrest.imp fun hab e he e' he' => ?_)
    rw [Item.event?_eq_some he, Item.event?_eq_some he'] at hab
    exact hab.2 rfl
  have hall : (r.events ++ rest.filterMap Item.event?).Pairwise fun a b =>
      a.position < b.position := by
    refine List.pairwise_append.mpr ⟨List.pairwise_map.mp hordered.1, hpushed, fun a ha b hb => ?_⟩
    -- what the acknowledgement brought is not past its snapshot, what follows is
    rcases List.mem_filterMap.mp hb with ⟨item, hitem, hb⟩
    have hpast := hlater item hitem
    rw [Item.event?_eq_some hb] at hpast
    exact lt_of_le_of_lt (hordered.2 a ha) (hpast.2 rfl)
  exact List.pairwise_map.mpr (hall.imp fun hlt => ne_of_lt hlt)

/-- Delivery has no gap and no duplicate, for one socket and one execution and
    over every interleaving. The first item is an acknowledgement; events after
    a resynchronisation carry its attempt and are numbered on from its
    snapshot; in one subscription, which lasts from an acknowledgement to the
    next, no event is sent twice, those in the acknowledgement included; and if
    a pass serves the subscription and the row does not move from its start to
    its end, the last item is where the row is. -/
theorem gateway_delivery (d : Deployment) (userId id : Uuid) (window : Nat) :
    (∀ inputs, ∀ item ∈ (received id.text (Gateway.sent d userId window inputs)).head?,
      ∃ r, item = .acknowledged r) ∧
    (∀ inputs before (resync : Item) snapshot (events : List PublicExecutionEvent) after,
      received id.text (Gateway.sent d userId window inputs)
        = before ++ resync :: (events.map .event ++ after) →
      resync.snapshot? = some snapshot →
      (∀ e ∈ events, e.attempt = snapshot.attempt) ∧
        events.map (·.sequence) = List.range' (snapshot.lastSequence + 1) events.length) ∧
    (∀ inputs before (r : Replay) rest,
      received id.text (Gateway.sent d userId window inputs) = before ++ .acknowledged r :: rest →
      (∀ r', .acknowledged r' ∉ rest) →
      ((r.events ++ rest.filterMap Item.event?).map PublicExecutionEvent.position).Nodup) ∧
    ∀ before earlier later cursor stamp asked r (j j' : Job),
      (Gateway.run d userId window before).client.connected = true →
      (Gateway.run d userId window before).client.commandBusy = false →
      (Gateway.run d userId window before).client.polling = none →
      (Gateway.run d userId window (before ++ .startPoll :: earlier)).client.connected = true →
      (Gateway.run d userId window (before ++ .startPoll :: earlier)).client.polling
        = some (.replayed cursor stamp asked (.ok r)) →
      asked.executionId = id.text →
      (Gateway.run d userId window before).store.jobs.lookup id = some j →
      (Gateway.run d userId window
        (before ++ .startPoll :: earlier ++ .pollReplayed true :: later)).store.jobs.lookup id
          = some j' →
      j'.row.attempt = j.row.attempt → j'.row.lastSequence = j.row.lastSequence →
      ∃ item ∈ (received id.text (Gateway.sent d userId window
          (before ++ .startPoll :: earlier ++ .pollReplayed true :: later))).getLast?,
        item.position = .of j'.row.attempt j'.row.lastSequence := by
  refine ⟨fun inputs => (serving_run d id userId window inputs).first,
    fun inputs before resync snapshot events after hitems hsnapshot =>
      events_of_feed (serving_run d id userId window inputs).feed hitems hsnapshot,
    fun inputs before r rest hitems _ => ?once, ?current⟩
  case once =>
    have hserving := serving_run d id userId window inputs
    refine nodup_of_feed hserving.feed hitems (hserving.ordered r ?_)
    rw [hitems]
    exact List.mem_append_right _ List.mem_cons_self
  case current =>
    intro before earlier later cursor stamp asked r j j' hconnected hbusy hpolling hserves hanswer hid
      hj hj' hattempt hsequence
    have hsame : j'.row.position = j.row.position := by
      unfold Execution.position
      rw [hattempt, hsequence]
    -- the answer was read after the poll started, so it is not behind the row
    have hstarted : (Gateway.run d userId window (before ++ [.startPoll])).client.polling
        = some .resolving := by
      rw [Gateway.run_concat]
      simp [Gateway.step, Gateway.withClient, Client.startPoll, hconnected, hbusy, hpolling]
    have hreached : Reached (Gateway.run d userId window (before ++ [.startPoll])).store id
        j.row.position := by
      rw [Gateway.run_concat]
      exact reached_step ⟨j, hj, le_refl _⟩ .startPoll
    have hfresh := (freshPoll_run hreached
      (fun _ _ _ _ hp => by rw [hstarted] at hp; cases hp) earlier).1
    rw [List.append_assoc, List.singleton_append] at hfresh
    have hlow := hfresh cursor stamp asked r hanswer hid
    -- and what was sent since is not past it
    rcases lastAt_of_served hserves hanswer hid with ⟨a, ha, hposition⟩
    have hsplit : before ++ .startPoll :: earlier ++ .pollReplayed true :: later
        = before ++ .startPoll :: earlier ++ [.pollReplayed true] ++ later := by
      rw [List.append_assoc _ [_] later, List.singleton_append]
    have hserving := serving_run d id userId window
      (before ++ .startPoll :: earlier ++ .pollReplayed true :: later)
    rw [hsplit] at hserving hj' ⊢
    rw [Gateway.sent_append, received_append] at hserving ⊢
    rcases le_getLast hserving.feed ha with ⟨z, hz, hle⟩
    rcases hserving.behind z hz with ⟨i, hi, hhigh⟩
    obtain rfl : i = j' := Option.some.inj (hi.symm.trans hj')
    refine ⟨z, hz, le_antisymm hhigh ?_⟩
    calc Position.of i.row.attempt i.row.lastSequence
        = j.row.position := hsame
      _ ≤ r.snapshot.position := hlow
      _ = a.position := hposition.symm
      _ ≤ z.position := hle

end ArenaCore
