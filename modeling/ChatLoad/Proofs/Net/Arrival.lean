import ChatLoad.Proofs.Client.Move

/-! What the peer's actions bring to a connection: bytes are added to those that wait to be read, none is
taken away, and none comes after the end. -/

namespace ChatLoad

open Delivery

namespace Link

lemma not_ended {link : Link} (sound : Sound link.incoming) (h : link.ended = false) :
    ¬ Ended link.incoming := by
  apply sound.not_ended
  intro hlast
  simp [ended, hlast] at h

lemma sound_push {link : Link} (sound : Sound link.incoming) (delivery : Delivery) :
    Sound (link.push delivery).incoming := by
  rw [push]
  split
  · exact sound
  · next h => exact sound_concat (not_ended sound (by simpa using h)) delivery

lemma bytes_push {link : Link} (sound : Sound link.incoming) (delivery : Delivery) :
    bytes (link.push delivery).incoming =
      bytes link.incoming ++ if link.ended then [] else bytes [delivery] := by
  rw [push]
  split
  · simp
  · next h =>
    have hopen := not_ended sound (by simpa using h)
    simp [(append_of_not_ended hopen [delivery]).1]

lemma halting_push {link : Link} (h : Halting link.incoming) (delivery : Delivery) :
    Halting (link.push delivery).incoming := by
  rw [push]
  split
  · exact h
  · exact h.append [delivery]

lemma filter_unended {stream : List Delivery} (h : ¬ Ended stream) :
    stream.filter (· != .finish) = stream := by
  apply List.filter_eq_self.mpr
  intro delivery hd
  refine bne_iff_ne.mpr fun heq => h ?_
  rwa [heq] at hd

lemma filter_not_ended (stream : List Delivery) : ¬ Ended (stream.filter (· != .finish)) := by
  simp [Ended]

lemma sound_reset {link : Link} (sound : Sound link.incoming) : Sound link.reset.incoming := by
  rw [reset]
  split
  · exact sound
  · have hfault : ¬ Ended (link.incoming.filter (· != .finish) ++ [.fault IoError.reset.message]) := by
      simp [Ended]
    have hs := sound_concat hfault .finish
    rwa [List.append_assoc] at hs

lemma halting_reset {link : Link} (h : Halting link.incoming) : Halting link.reset.incoming := by
  rw [reset]
  split
  · exact h
  · exact .inl (by simp [Ended])

lemma bytes_reset {link : Link} (sound : Sound link.incoming) :
    bytes link.reset.incoming = bytes link.incoming := by
  rw [reset]
  split
  · rfl
  · have hb := (append_of_not_ended (filter_not_ended link.incoming)
      [.fault IoError.reset.message, .finish]).1
    rw [hb]
    rcases sound.cases with hopen | ⟨before, hopen, heq⟩
    · rw [filter_unended hopen]
      simp [bytes]
    · rw [heq, List.filter_append, filter_unended hopen, (append_of_not_ended hopen _).1]
      simp [(append_of_not_ended hopen _).1, bytes]

end Link

namespace Net

variable {σ : Type}

/-- Whether bytes can still arrive. -/
def receptive (net : Net σ) (conn : ConnId) : Bool :=
  (net.link? conn).any fun link => !link.ended

def arrival (net : Net σ) (conn : ConnId) : Action → Bytes
  | .deliver target bytes => if target = conn ∧ net.receptive conn then bytes else []
  | _ => []

def brought (net : Net σ) (conn : ConnId) : List Action → Bytes
  | [] => []
  | action :: actions => net.arrival conn action ++ (net.apply action).brought conn actions

def immediate (reactions : List Reaction) : List Action :=
  (reactions.filter fun reaction => reaction.after = 0).map (·.action)

def Sound (net : Net σ) : Prop :=
  ∀ conn, Delivery.Sound (net.incoming conn)

/-- The end of a connection, or a failure to read from it, is what its reader will find. -/
def Over (net : Net σ) (conn : ConnId) : Prop :=
  Halting (net.incoming conn)

/-- One network has grown out of another while nobody read from it: each connection has gained some
bytes. -/
structure Grown (net net' : Net σ) (gain : ConnId → Bytes) : Prop where
  bytes : ∀ conn, bytes (net'.incoming conn) = bytes (net.incoming conn) ++ gain conn
  halting : ∀ conn, net.Over conn → net'.Over conn
  sound : net'.Sound
  links : net.links.length ≤ net'.links.length
  fresh : ∀ conn, net'.links.length ≤ conn → gain conn = []

lemma incoming_of_links {net net' : Net σ} (h : net.links = net'.links) (conn : ConnId) :
    net.incoming conn = net'.incoming conn := by
  unfold incoming link?
  rw [h]

lemma link?_change (net : Net σ) (conn other : ConnId) (f : Link → Link) :
    (net.change conn f).link? other =
      if conn = other then (net.link? other).map f else net.link? other := by
  unfold change link?
  rw [List.getElem?_modify]
  split
  · rfl
  · simp

lemma Grown.refl {net : Net σ} (sound : net.Sound) : net.Grown net fun _ => [] where
  bytes := by simp
  halting := fun _ => id
  sound := sound
  links := Nat.le_refl _
  fresh := fun _ _ => rfl

lemma Grown.trans {net net' net'' : Net σ} {gain gain' : ConnId → Bytes} (h : net.Grown net' gain)
    (h' : net'.Grown net'' gain') : net.Grown net'' fun conn => gain conn ++ gain' conn where
  bytes := by
    intro conn
    rw [h'.bytes, h.bytes, List.append_assoc]
  halting := fun conn hover => h'.halting conn (h.halting conn hover)
  sound := h'.sound
  links := Nat.le_trans h.links h'.links
  fresh := by
    intro conn hc
    rw [h.fresh conn (Nat.le_trans h'.links hc), h'.fresh conn hc]
    rfl

lemma Grown.keep {net net' : Net σ} (sound : net.Sound) (h : net.links = net'.links) :
    net.Grown net' fun _ => [] where
  bytes := by simp [incoming_of_links h]
  halting := fun conn hover => by rwa [Over, ← incoming_of_links h conn]
  sound := fun conn => incoming_of_links h conn ▸ sound conn
  links := by rw [h]
  fresh := fun _ _ => rfl

lemma incoming_of_link? {net : Net σ} {conn : ConnId} {link : Link}
    (h : net.link? conn = some link) : net.incoming conn = link.incoming := by
  simp only [incoming, h]

lemma incoming_of_length_le {net : Net σ} {conn : ConnId} (h : net.links.length ≤ conn) :
    net.incoming conn = [] := by
  have hnone : net.link? conn = none := List.getElem?_eq_none h
  simp only [incoming, hnone]

lemma length_links_change (net : Net σ) (conn : ConnId) (f : Link → Link) :
    (net.change conn f).links.length = net.links.length :=
  List.length_modify _ _ _

lemma grown_change {net : Net σ} (sound : net.Sound) {conn : ConnId} {f : Link → Link} {extra : Bytes}
    (hsome : ∀ link, net.link? conn = some link → Delivery.Sound (f link).incoming ∧
      (Halting link.incoming → Halting (f link).incoming) ∧
      Delivery.bytes (f link).incoming = Delivery.bytes link.incoming ++ extra)
    (hnone : net.link? conn = none → extra = []) :
    net.Grown (net.change conn f) fun other => if conn = other then extra else [] where
  bytes := by
    intro other
    unfold incoming
    rw [link?_change]
    by_cases heq : conn = other
    · subst heq
      cases h : net.link? conn with
      | none => simp [hnone h]
      | some link => simpa using (hsome link h).2.2
    · simp [heq]
  halting := by
    intro other hover
    unfold Over incoming at hover ⊢
    rw [link?_change]
    by_cases heq : conn = other
    · subst heq
      cases h : net.link? conn with
      | none => simpa [h] using hover
      | some link => simpa using (hsome link h).2.1 (by simpa [h] using hover)
    · simpa [heq] using hover
  sound := by
    intro other
    have hold := sound other
    unfold incoming at hold ⊢
    rw [link?_change]
    by_cases heq : conn = other
    · subst heq
      cases h : net.link? conn with
      | none => simpa using sound_nil
      | some link => simpa using (hsome link h).1
    · simpa [heq] using hold
  links := Nat.le_of_eq (net.length_links_change conn f).symm
  fresh := by
    intro other hother
    rw [length_links_change] at hother
    split
    · next heq => exact hnone (by rw [heq]; exact List.getElem?_eq_none hother)
    · rfl

lemma sound_link {net : Net σ} (sound : net.Sound) {conn : ConnId} {link : Link}
    (h : net.link? conn = some link) : Delivery.Sound link.incoming :=
  incoming_of_link? h ▸ sound conn

theorem grown_apply {net : Net σ} (sound : net.Sound) (action : Action) :
    net.Grown (net.apply action) fun conn => net.arrival conn action := by
  cases action with
  | deliver target piece =>
    have hgain : (fun conn => net.arrival conn (.deliver target piece)) = fun conn =>
        if target = conn then (if net.receptive target then piece else []) else [] := by
      funext conn
      by_cases heq : target = conn
      · subst heq
        simp [arrival]
      · simp [arrival, heq]
    rw [hgain]
    apply grown_change sound
    · intro link h
      have hs := sound_link sound h
      refine ⟨Link.sound_push hs _, fun hhalt => Link.halting_push hhalt _, ?_⟩
      rw [Link.bytes_push hs]
      cases hend : link.ended <;> simp [receptive, h, hend, Delivery.bytes]
    · intro h
      simp [receptive, h]
  | finish conn =>
    have hgain : (fun other => net.arrival other (.finish conn)) = fun other =>
        if conn = other then [] else [] := by
      funext other
      simp [arrival]
    rw [hgain]
    refine grown_change sound ?_ fun _ => rfl
    intro link h
    have hs := sound_link sound h
    refine ⟨Link.sound_push hs _, fun hhalt => Link.halting_push hhalt _, ?_⟩
    rw [Link.bytes_push hs]
    simp [Delivery.bytes]
  | reset conn =>
    have hgain : (fun other => net.arrival other (.reset conn)) = fun other =>
        if conn = other then [] else [] := by
      funext other
      simp [arrival]
    rw [hgain]
    refine grown_change sound ?_ fun _ => rfl
    intro link h
    have hs := sound_link sound h
    exact ⟨Link.sound_reset hs, Link.halting_reset, by rw [Link.bytes_reset hs, List.append_nil]⟩
  | stopListening => exact .keep sound rfl

/-! ### Whole lists of actions -/

lemma links_apply {net net' : Net σ} (h : net.links = net'.links) (action : Action) :
    (net.apply action).links = (net'.apply action).links := by
  cases action <;> simp [apply, change, h]

lemma arrival_congr {net net' : Net σ} (h : net.links = net'.links) (conn : ConnId)
    (action : Action) : net.arrival conn action = net'.arrival conn action := by
  have hr : net.receptive conn = net'.receptive conn := by simp only [receptive, link?, h]
  cases action <;> simp only [arrival, hr]

lemma brought_congr {net net' : Net σ} (h : net.links = net'.links) (conn : ConnId)
    (actions : List Action) : net.brought conn actions = net'.brought conn actions := by
  induction actions generalizing net net' with
  | nil => rfl
  | cons action actions ih =>
    rw [brought, brought, arrival_congr h, ih (links_apply h action)]

theorem grown_actions {net : Net σ} (sound : net.Sound) (actions : List Action) :
    net.Grown (actions.foldl apply net) fun conn => net.brought conn actions := by
  induction actions generalizing net with
  | nil => exact .refl sound
  | cons action actions ih =>
    have hone := grown_apply sound action
    exact hone.trans (ih hone.sound)

lemma grown_react {net : Net σ} (sound : net.Sound) (now : Duration) (reactions : List Reaction) :
    net.Grown (net.react now reactions) fun conn => net.brought conn (immediate reactions) := by
  induction reactions generalizing net with
  | nil => exact .refl sound
  | cons reaction reactions ih =>
    by_cases h : reaction.after = 0
    · have hone := grown_apply sound reaction.action
      have hall := hone.trans (ih hone.sound)
      simpa [react, h, immediate, brought] using hall
    · have hlinks : net.links =
          ({ net with agenda := net.agenda ++ [(now + reaction.after, reaction.action)] } : Net σ).links :=
        rfl
      have hkeep := Grown.keep sound hlinks
      have hall := hkeep.trans (ih hkeep.sound)
      simpa [react, h, immediate, brought_congr hlinks] using hall

/-- What the peer had put off and is due by now. -/
def dueActions (net : Net σ) (now : Duration) : List Action :=
  (net.agenda.filter (·.1 ≤ now)).map (·.2)

lemma grown_agenda {net : Net σ} (sound : net.Sound) (now : Duration) :
    net.Grown (net.runAgenda now) fun conn => net.brought conn (net.dueActions now) := by
  have hlinks : net.links =
      ({ net with agenda := net.agenda.filter (now < ·.1) } : Net σ).links := rfl
  have hkeep := Grown.keep sound hlinks
  have hall := hkeep.trans (grown_actions hkeep.sound (net.dueActions now))
  rw [dueActions] at hall
  rw [List.foldl_map] at hall
  simpa [runAgenda, brought_congr hlinks, dueActions] using hall

/-! ### The client's side -/

def provoked (net : Net σ) (conn : ConnId) (bytes : Bytes) : List Action :=
  immediate (net.peer.hear conn bytes net.memory).2

lemma grown_write {net net' : Net σ} {now : Duration} {conn : ConnId} {bytes : Bytes}
    (sound : net.Sound) (h : net.write now conn bytes = (.ok (), net')) :
    net.Grown net' fun other => net.brought other (net.provoked conn bytes) := by
  rw [write] at h
  cases hl : net.link? conn with
  | none => simp [hl] at h
  | some link =>
    rw [hl] at h
    by_cases hb : (link.broken || link.closed) = true
    · simp [hb] at h
    · simp only [hb, if_false, Bool.false_eq_true, Prod.mk.injEq, true_and] at h
      have hlinks : net.links =
          ({ net with memory := (net.peer.hear conn bytes net.memory).1 } : Net σ).links := rfl
      have hkeep := Grown.keep sound hlinks
      have hall := hkeep.trans
        (grown_react hkeep.sound now (net.peer.hear conn bytes net.memory).2)
      rw [← h]
      simpa [provoked, brought_congr hlinks] using hall

lemma write_error {net net' : Net σ} {now : Duration} {conn : ConnId} {bytes : Bytes}
    {cause : IoError} (h : net.write now conn bytes = (.error cause, net')) : net' = net := by
  rw [write] at h
  cases hl : net.link? conn with
  | none =>
    simp only [hl, Prod.mk.injEq] at h
    exact h.2.symm
  | some link =>
    rw [hl] at h
    by_cases hb : (link.broken || link.closed) = true
    · simp only [hb, if_true, Prod.mk.injEq] at h
      exact h.2.symm
    · simp [hb] at h

def accepting (net : Net σ) : Net σ :=
  { net with
    memory := (net.peer.accept net.links.length net.memory).1
    links := net.links ++ [{}] }

def welcome (net : Net σ) : List Action :=
  immediate (net.peer.accept net.links.length net.memory).2

lemma link?_accepting (net : Net σ) (conn : ConnId) :
    net.accepting.link? conn =
      if conn = net.links.length then some {} else net.link? conn := by
  unfold accepting link?
  rw [List.getElem?_append]
  split
  · next hlt => rw [if_neg (Nat.ne_of_lt hlt)]
  · next hge =>
    by_cases heq : conn = net.links.length
    · simp [heq]
    · have hlt : net.links.length < conn := Nat.lt_of_le_of_ne (Nat.le_of_not_lt hge) (Ne.symm heq)
      rw [if_neg heq, List.getElem?_eq_none (Nat.le_of_lt hlt), List.getElem?_eq_none]
      exact Nat.sub_pos_of_lt hlt

lemma grown_accepting {net : Net σ} (sound : net.Sound) :
    net.Grown net.accepting fun _ => [] := by
  have hincoming : ∀ conn, net.accepting.incoming conn = net.incoming conn := by
    intro conn
    unfold incoming
    rw [link?_accepting]
    by_cases heq : conn = net.links.length
    · have hnone : net.link? conn = none := List.getElem?_eq_none (Nat.le_of_eq heq.symm)
      rw [if_pos heq, hnone]
    · rw [if_neg heq]
  refine ⟨?_, ?_, ?_, ?_, fun _ _ => rfl⟩
  · simp [hincoming]
  · exact fun conn hover => by rwa [Over, hincoming conn]
  · exact fun conn => hincoming conn ▸ sound conn
  · simp [accepting]

lemma openLink_fst (net : Net σ) (now : Duration) : (net.openLink now).1 = net.links.length := rfl

lemma grown_openLink {net : Net σ} (sound : net.Sound) (now : Duration) :
    net.Grown (net.openLink now).2 (fun conn => net.accepting.brought conn net.welcome) ∧
      net.links.length < (net.openLink now).2.links.length := by
  have haccept := grown_accepting sound
  have hreact := grown_react haccept.sound now (net.peer.accept net.links.length net.memory).2
  have hlinks : net.accepting.links.length = net.links.length + 1 := by simp [accepting]
  refine ⟨haccept.trans hreact, ?_⟩
  have hle := hreact.links
  rw [hlinks] at hle
  exact hle

lemma grown_close {net : Net σ} (sound : net.Sound) (conn : ConnId) :
    net.Grown (net.close conn) fun _ => [] := by
  rw [close]
  cases h : net.link? conn with
  | none => exact .refl sound
  | some link =>
    have hclosed : net.Grown (net.change conn ({ · with closed := true })) fun other =>
        if conn = other then [] else [] :=
      grown_change sound
        (fun other hl => ⟨(sound_link sound hl : Delivery.Sound other.incoming), id, by simp⟩)
        fun _ => rfl
    simp only [ite_self] at hclosed
    by_cases hgone : (link.closed || link.broken) = true
    · simpa only [hgone, if_true] using hclosed
    · have hkeep : (net.change conn ({ · with closed := true })).Grown
          { net.change conn ({ · with closed := true }) with
            memory := net.peer.lose conn net.memory } fun _ => [] :=
        .keep hclosed.sound rfl
      simp only [hgone, if_false, Bool.false_eq_true]
      exact hclosed.trans hkeep

lemma grown_drop {net : Net σ} (sound : net.Sound) (before after : Client) :
    net.Grown (net.drop before after) fun _ => [] := by
  rw [drop]
  induction before.held.filter fun conn => !after.held.contains conn generalizing net with
  | nil => exact .refl sound
  | cons conn conns ih =>
    have hone := grown_close sound conn
    exact hone.trans (ih hone.sound)

lemma grown_touch {net : Net σ} (sound : net.Sound) (now : Duration) :
    net.Grown (net.touch now) fun conn => net.accepting.brought conn net.welcome := by
  have hopen := (grown_openLink sound now).1
  have hall := hopen.trans (grown_close hopen.sound (net.openLink now).1)
  simpa [touch] using hall

lemma links_attempt (net : Net σ) : net.attempt.2.links = net.links := by
  rw [attempt]
  split <;> rfl

/-! ### Reading -/

lemma length_links_leave (net : Net σ) (conn : ConnId) (incoming : List Delivery) :
    (net.leave conn incoming).links.length = net.links.length :=
  net.length_links_change conn _

lemma incoming_leave {net : Net σ} {conn : ConnId} (h : conn < net.links.length)
    (rest : List Delivery) (other : ConnId) :
    (net.leave conn rest).incoming other = if conn = other then rest else net.incoming other := by
  obtain ⟨link, hl⟩ : ∃ link, net.link? conn = some link := ⟨_, List.getElem?_eq_getElem h⟩
  unfold leave incoming
  rw [link?_change]
  by_cases heq : conn = other
  · subst heq
    simp [hl]
  · simp [heq]

lemma sound_leave {net : Net σ} (sound : net.Sound) {conn : ConnId} (h : conn < net.links.length)
    {rest : List Delivery} (hs : rest <:+ net.incoming conn) : (net.leave conn rest).Sound := by
  intro other
  rw [incoming_leave h]
  split
  · exact (sound conn).suffix hs
  · exact sound other

end Net

end ChatLoad
