import ChatLoad.Proofs.Client.Move

/-! What inbound frames do to a client: each response takes its request off the table, and a sample is
taken exactly when there was one to take off. -/

namespace ChatLoad

namespace Pending

variable (pending : Pending) (id : UInt64)

def ids : List UInt64 :=
  pending.map (·.1)

lemma ids_erase : (pending.erase id).ids = pending.ids.filter (· != id) := by
  induction pending with
  | nil => rfl
  | cons entry pending ih =>
    simp only [ids, erase] at ih ⊢
    by_cases h : entry.1 = id <;> simp [h, ih]

lemma ids_insert (sentAt : Duration) :
    (pending.insert id sentAt).ids = id :: pending.ids.filter (· != id) := by
  rw [← ids_erase]
  rfl

lemma isSome_sentAt? : (pending.sentAt? id).isSome ↔ id ∈ pending.ids := by
  rw [← not_iff_not, Bool.not_eq_true, Option.isSome_eq_false_iff, Option.isNone_iff_eq_none,
    sentAt?, List.lookup_eq_none_iff]
  simp only [ids, List.mem_map, not_exists, not_and, bne_iff_ne, ne_eq]
  exact forall₂_congr fun _ _ => not_congr eq_comm

lemma erase_of_notMem {pending : Pending} {id : UInt64} (h : id ∉ pending.ids) :
    pending.erase id = pending := by
  apply List.filter_eq_self.mpr
  intro entry he
  have hne : entry.1 ≠ id := fun heq => h (heq ▸ List.mem_map_of_mem he)
  simpa using hne

@[simp] lemma length_ids : pending.ids.length = pending.length :=
  List.length_map _

def hear (frame : Frame) : Pending :=
  if frame.kind.isChatResponse then pending.erase frame.requestId else pending

/-- How many of the frames answer a request that is in flight when they come in. -/
def matched (pending : Pending) : List Frame → Nat
  | [] => 0
  | frame :: frames =>
      (if frame.kind.isChatResponse ∧ frame.requestId ∈ pending.ids then 1 else 0) +
        matched (pending.hear frame) frames

end Pending

namespace Frame

/-- What a frame counts as. -/
def counters (frame : Frame) : List Counter :=
  match frame.kind with
  | .heartbeat => [.heartbeatsReceived]
  | .singleChat | .groupChat | .ack => [.messagesReceived]
  | .error => [.errors]
  | .unknown | .auth => []

lemma count_counters {c : Counter} (hb : c ≠ .heartbeatsReceived) (hm : c ≠ .messagesReceived)
    (he : c ≠ .errors) (frames : List Frame) : (frames.flatMap counters).count c = 0 := by
  apply List.count_eq_zero.mpr
  intro hc
  obtain ⟨frame, _, hf⟩ := List.mem_flatMap.mp hc
  rw [counters] at hf
  cases hk : frame.kind <;> simp_all

lemma count_flatMap {c : Counter} {p : Frame → Bool}
    (h : ∀ frame : Frame, frame.counters.count c = if p frame then 1 else 0) (frames : List Frame) :
    (frames.flatMap counters).count c = frames.countP p := by
  induction frames with
  | nil => rfl
  | cons frame frames ih =>
    rw [List.flatMap_cons, List.count_append, List.countP_cons, ih, h, Nat.add_comm]

lemma count_heartbeats (frames : List Frame) :
    (frames.flatMap counters).count .heartbeatsReceived =
      frames.countP fun frame => frame.kind = .heartbeat := by
  refine count_flatMap (fun frame => ?_) frames
  rw [counters]
  cases frame.kind <;> rfl

lemma count_messages (frames : List Frame) :
    (frames.flatMap counters).count .messagesReceived =
      frames.countP fun frame => frame.kind.isChatResponse := by
  refine count_flatMap (fun frame => ?_) frames
  rw [counters]
  cases frame.kind <;> rfl

lemma count_errors (frames : List Frame) :
    (frames.flatMap counters).count .errors =
      frames.countP fun frame => frame.kind = .error := by
  refine count_flatMap (fun frame => ?_) frames
  rw [counters]
  cases frame.kind <;> rfl

end Frame

namespace Client

variable (client : Client) (now : Duration)

lemma handle_client (frame : Frame) :
    (client.handle now frame).1 = { client with pending := client.pending.hear frame } := by
  rw [handle, Pending.hear]
  cases hk : frame.kind with
  | singleChat | groupChat | ack =>
    simp only [Command.isChatResponse, reduceCtorEq, if_false, if_true]
    cases hp : client.pending.sentAt? frame.requestId with
    | none =>
      have hn : frame.requestId ∉ client.pending.ids := by
        rw [← Pending.isSome_sentAt?, hp]
        simp
      rw [Pending.erase_of_notMem hn]
    | some sentAt => rfl
  | unknown | heartbeat | auth | error => rfl

lemma handle_counters (frame : Frame) :
    (client.handle now frame).2.flatMap Incident.counters = frame.counters := by
  rw [handle, Frame.counters]
  cases hk : frame.kind with
  | singleChat | groupChat | ack =>
    simp only [Command.isChatResponse, reduceCtorEq, if_false, if_true]
    cases hp : client.pending.sentAt? frame.requestId <;> rfl
  | unknown | heartbeat | auth | error => rfl

lemma handle_samples (frame : Frame) :
    ((client.handle now frame).2.filterMap Incident.sample?).length =
      if frame.kind.isChatResponse ∧ frame.requestId ∈ client.pending.ids then 1 else 0 := by
  rw [handle]
  simp only [← Pending.isSome_sentAt?]
  cases hk : frame.kind with
  | singleChat | groupChat | ack =>
    simp only [Command.isChatResponse, reduceCtorEq, if_false, if_true, true_and]
    cases hp : client.pending.sentAt? frame.requestId <;> rfl
  | unknown | heartbeat | auth | error => simp [Command.isChatResponse, Incident.sample?]

/-- Takes note of frames in order, each at the moment when it comes in. -/
def handleEach (client : Client) : List (Duration × Frame) → Client × List Incident
  | [] => (client, [])
  | (now, frame) :: arrivals =>
      let (client, first) := client.handle now frame
      let (client, later) := client.handleEach arrivals
      (client, first ++ later)

lemma handleEach_cons (frame : Frame) (arrivals : List (Duration × Frame)) :
    client.handleEach ((now, frame) :: arrivals) =
      (((client.handle now frame).1.handleEach arrivals).1,
        (client.handle now frame).2 ++ ((client.handle now frame).1.handleEach arrivals).2) := rfl

lemma handleEach_client (arrivals : List (Duration × Frame)) :
    (client.handleEach arrivals).1 =
      { client with pending := (arrivals.map Prod.snd).foldl Pending.hear client.pending } := by
  induction arrivals generalizing client with
  | nil => rfl
  | cons arrival arrivals ih =>
    rw [handleEach_cons, ih, handle_client]
    rfl

lemma handleEach_counters (arrivals : List (Duration × Frame)) :
    (client.handleEach arrivals).2.flatMap Incident.counters =
      (arrivals.map Prod.snd).flatMap Frame.counters := by
  induction arrivals generalizing client with
  | nil => rfl
  | cons arrival arrivals ih =>
    rw [handleEach_cons, List.flatMap_append, ih, handle_counters]
    rfl

lemma handleEach_samples (arrivals : List (Duration × Frame)) :
    ((client.handleEach arrivals).2.filterMap Incident.sample?).length =
      client.pending.matched (arrivals.map Prod.snd) := by
  induction arrivals generalizing client with
  | nil => rfl
  | cons arrival arrivals ih =>
    rw [handleEach_cons, List.filterMap_append, List.length_append, ih, handle_samples,
      handle_client]
    rfl

lemma handleAll_frame (frame : Frame) (items : List Item) :
    client.handleAll now (.frame frame :: items) =
      (((client.handle now frame).1.handleAll now items).1,
        (client.handle now frame).2 ++ ((client.handle now frame).1.handleAll now items).2) := rfl

/-- Frames that all come in at one moment. -/
def arriving (now : Duration) (items : List Item) : List (Duration × Frame) :=
  (items.filterMap Item.frame?).map fun frame => (now, frame)

lemma snd_arriving (items : List Item) :
    (arriving now items).map Prod.snd = items.filterMap Item.frame? := by
  simp [arriving, Function.comp_def]

/-- What a receive loop reads in one go comes in frame by frame at one moment. -/
lemma handleAll_eq_handleEach (items : List Item) :
    client.handleAll now items = client.handleEach (arriving now items) := by
  induction items generalizing client with
  | nil => rfl
  | cons item items ih =>
    cases item with
    | badHeader fault => exact ih client
    | frame frame => rw [handleAll_frame, ih]; rfl

theorem handleAll_client (items : List Item) :
    (client.handleAll now items).1 =
      { client with pending := (items.filterMap Item.frame?).foldl Pending.hear client.pending } := by
  rw [handleAll_eq_handleEach, handleEach_client, snd_arriving]

theorem handleAll_counters (items : List Item) :
    (client.handleAll now items).2.flatMap Incident.counters =
      (items.filterMap Item.frame?).flatMap Frame.counters := by
  rw [handleAll_eq_handleEach, handleEach_counters, snd_arriving]

theorem handleAll_samples (items : List Item) :
    ((client.handleAll now items).2.filterMap Incident.sample?).length =
      client.pending.matched (items.filterMap Item.frame?) := by
  rw [handleAll_eq_handleEach, handleEach_samples, snd_arriving]

lemma handleAll_nothing {items : List Item} (h : items.filterMap Item.frame? = []) :
    client.handleAll now items = (client, []) := by
  rw [handleAll_eq_handleEach, arriving, h]
  rfl

/-! ### What a receive loop takes in -/

section

variable {σ : Type} (net : Net σ) (wait : Wait)

def heard : Move → List Frame
  | .receive session => (client.finds net session).1.filterMap Item.frame?
  | _ => []

def readFailures : Move → List String
  | .receive session => (client.finds net session).2.1.faults
  | _ => []

end

end Client

end ChatLoad
