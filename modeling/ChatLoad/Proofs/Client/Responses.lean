import ChatLoad.Proofs.Client.Requests
import ChatLoad.Proofs.World.Balance

/-! Responses are matched by id and never by order: what frames come to, for the client and for the
statistics, depends on which frames there are and not on when they come in. Which of several
responses to one request gives the sample does depend on it, but not that there is one. -/

namespace ChatLoad

namespace Frame

/-- The requests that frames answer, in flight or not. -/
def answered (frames : List Frame) : List UInt64 :=
  (frames.filter (·.kind.isChatResponse)).map requestId

lemma answered_cons (frame : Frame) (frames : List Frame) :
    answered (frame :: frames) =
      if frame.kind.isChatResponse then frame.requestId :: answered frames
      else answered frames := by
  rw [answered, List.filter_cons]
  split <;> rfl

lemma answered_perm {frames others : List Frame} (h : frames.Perm others) :
    (answered frames).Perm (answered others) :=
  (h.filter _).map _

end Frame

namespace Pending

lemma foldl_hear (frames : List Frame) (pending : Pending) :
    frames.foldl hear pending = pending.filter fun entry => entry.1 ∉ Frame.answered frames := by
  induction frames generalizing pending with
  | nil => exact (List.filter_eq_self.mpr fun _ _ => by simp [Frame.answered]).symm
  | cons frame frames ih =>
    rw [List.foldl_cons, ih, hear, Frame.answered_cons]
    split
    · rw [erase, List.filter_filter]
      refine List.filter_congr fun entry _ => Bool.eq_iff_iff.mpr ?_
      simp [and_comm]
    · rfl

lemma toFinset_ids_erase (pending : Pending) (id : UInt64) :
    (pending.erase id).ids.toFinset = pending.ids.toFinset.erase id := by
  ext other
  simp [ids_erase, and_comm]

/-- A request in flight is counted with the first of its responses and not with later ones, so that
each is counted once. -/
lemma matched_eq_card (frames : List Frame) (pending : Pending) :
    pending.matched frames =
      (pending.ids.toFinset ∩ (Frame.answered frames).toFinset).card := by
  induction frames generalizing pending with
  | nil => simp [matched, Frame.answered]
  | cons frame frames ih =>
    rw [matched, ih, Frame.answered_cons, hear]
    by_cases hk : frame.kind.isChatResponse
    · by_cases hm : frame.requestId ∈ pending.ids
      · simp only [hk, hm, and_self, if_true, toFinset_ids_erase, List.toFinset_cons]
        rw [Finset.inter_insert_of_mem (List.mem_toFinset.mpr hm), Finset.erase_inter, add_comm,
          ← Finset.erase_insert_eq_erase, Finset.card_erase_add_one (Finset.mem_insert_self ..)]
      · simp only [hk, hm, and_false, if_true, if_false, erase_of_notMem hm, List.toFinset_cons]
        rw [Finset.inter_insert_of_notMem (by simpa using hm), Nat.zero_add]
    · simp [hk]

end Pending

namespace Client

variable (client : Client)

/-- What frames come to, by what they are and in no order. -/
structure TakenIn (client : Client) (stats : Stats) (frames : List Frame) (client' : Client)
    (stats' : Stats) : Prop where
  becomes : client' = { client with
    pending := client.pending.filter fun entry => entry.1 ∉ Frame.answered frames }
  messages : stats'.counters.get .messagesReceived =
    stats.counters.get .messagesReceived + frames.countP (·.kind.isChatResponse)
  heartbeats : stats'.counters.get .heartbeatsReceived =
    stats.counters.get .heartbeatsReceived + frames.countP (·.kind = .heartbeat)
  errors : stats'.counters.get .errors =
    stats.counters.get .errors + frames.countP (·.kind = .error)
  others : ∀ counter, counter ≠ .heartbeatsReceived → counter ≠ .messagesReceived →
    counter ≠ .errors → stats'.counters.get counter = stats.counters.get counter
  samples : ∃ added, stats'.latencies.toList = stats.latencies.toList ++ added ∧
    added.length = (client.pending.ids.toFinset ∩ (Frame.answered frames).toFinset).card
  startedAt : stats'.startedAt = stats.startedAt
  finishedAt : stats'.finishedAt = stats.finishedAt

lemma handleEach_takenIn (stats : Stats) (arrivals : List (Duration × Frame)) :
    TakenIn client stats (arrivals.map Prod.snd) (client.handleEach arrivals).1
      (stats.after (client.handleEach arrivals).2) := by
  have counted (counter : Counter) :
      (stats.after (client.handleEach arrivals).2).counters.get counter =
        stats.counters.get counter +
          ((arrivals.map Prod.snd).flatMap Frame.counters).count counter := by
    rw [Stats.get_after, Incident.tally, handleEach_counters]
  obtain ⟨counters, after⟩ := Stats.exists_counters_after (client.handleEach arrivals).2 stats
  refine {
    becomes := by rw [handleEach_client, Pending.foldl_hear]
    messages := by rw [counted, Frame.count_messages]
    heartbeats := by rw [counted, Frame.count_heartbeats]
    errors := by rw [counted, Frame.count_errors]
    others := fun counter hb hm he => by rw [counted, Frame.count_counters hb hm he, Nat.add_zero]
    samples := ⟨(client.handleEach arrivals).2.filterMap Incident.sample?, by simp [after], ?_⟩
    startedAt := by rw [after]
    finishedAt := by rw [after] }
  rw [handleEach_samples, Pending.matched_eq_card]

/-- Frames come to the same in every order and at any moments. For every request in flight that they
answer there is one sample, however many answers there are; those requests leave the table, and only
counters of messages, heartbeats and errors change, each by the number of its frames. -/
theorem handleEach_perm (stats : Stats) {arrivals others : List (Duration × Frame)}
    (h : (arrivals.map Prod.snd).Perm (others.map Prod.snd)) :
    TakenIn client stats (arrivals.map Prod.snd) (client.handleEach arrivals).1
      (stats.after (client.handleEach arrivals).2) ∧
    (client.handleEach others).1 = (client.handleEach arrivals).1 ∧
    (stats.after (client.handleEach others).2).counters =
      (stats.after (client.handleEach arrivals).2).counters ∧
    (stats.after (client.handleEach others).2).latencyCount =
      (stats.after (client.handleEach arrivals).2).latencyCount := by
  have one := client.handleEach_takenIn stats arrivals
  have two := client.handleEach_takenIn stats others
  refine ⟨one, ?_, Counters.ext_get fun counter => ?_, ?_⟩
  · simp only [one.becomes, two.becomes, (Frame.answered_perm h).mem_iff]
  · simp only [Stats.get_after, Incident.tally, handleEach_counters]
    rw [(h.flatMap_right _).count_eq]
  · simp only [Stats.latencyCount_after, handleEach_samples, Pending.matched_eq_card]
    rw [List.toFinset_eq_of_perm _ _ (Frame.answered_perm h)]

theorem two_orders_of_responses :
    let frame (code : UInt8) (id : UInt64) : Frame := ⟨⟨0xCAFE, 1, 1, code, id, 0⟩, []⟩
    let client : Client := { id := 7, pending := [(1, 10), (2, 20), (3, 30)] }
    let arrivals :=
      [(40, frame 5 2), (41, frame 6 0), (42, frame 3 2), (43, frame 4 1), (44, frame 5 9)]
    let others :=
      [(50, frame 5 9), (50, frame 4 1), (70, frame 3 2), (71, frame 6 0), (71, frame 5 2)]
    (arrivals.map Prod.snd).Perm (others.map Prod.snd) ∧
    (client.handleEach others).1 = (client.handleEach arrivals).1 ∧
    (client.handleEach arrivals).1.pending = [(3, 30)] ∧
    (Stats.after {} (client.handleEach others).2).latencyCount = 2 := by
  intro frame client arrivals others
  have h : (arrivals.map Prod.snd).Perm (others.map Prod.snd) := by decide
  obtain ⟨-, same, -, count⟩ := client.handleEach_perm {} h
  exact ⟨h, same, by decide, count.trans rfl⟩

end Client

end ChatLoad
