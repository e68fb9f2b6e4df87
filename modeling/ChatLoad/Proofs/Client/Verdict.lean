import ChatLoad.Proofs.Client.Readers

/-! How an AUTH ends and what a look of a receive loop brings, told by the bytes at hand. -/

namespace ChatLoad

open Item

namespace Client

variable {σ : Type}

/-! ### Ready to log in -/

/-- A client that may log in holds a connection to read from. -/
def Ready (client : Client) (wait : Wait) : Prop :=
  client.mayLogIn wait → client.reader.isSome

section

variable {now : Duration} {client client' : Client} {net net' : Net σ} {wait wait' : Wait}
  {move : Move} {incidents : List Incident}

lemma Ready.keep (ready : client.Ready wait) (hstate : client'.state = client.state)
    (hreader : client'.reader = client.reader) : client'.Ready wait := by
  simpa only [Ready, mayLogIn, hstate, hreader] using ready

lemma Looked.ready {deadline : Duration}
    (h : Looked now deadline client net client' net' wait' incidents)
    (hreader : client.reader.isSome) : client'.Ready wait' := by
  intro _
  cases h with
  | noReader => exact hreader
  | _ => rfl

lemma Moved.ready (h : Moved now client net wait move client' net' wait' incidents)
    (ready : client.Ready wait) : client'.Ready wait' := by
  cases h with
  | still _ hwait =>
    rcases hwait with rfl | ⟨hw, hw'⟩
    · exact ready
    · simpa [Ready, mayLogIn, (Wait.not_inCall_iff.mp hw).2, (Wait.not_inCall_iff.mp hw').2]
        using ready
  | refused | late | connecting | expired | heartbeat => exact ready
  | connected => exact fun _ => rfl
  | unsendable | unsent | hasty | chat | beat | lastBeat => exact ready.keep rfl rfl
  | sent hstate _ _ _ hlook => exact hlook.ready (ready (by simp [mayLogIn, hstate]))
  | resumed hlook => exact hlook.ready (ready (by simp [mayLogIn, Wait.isLoggingIn]))
  | started => simp [Ready, mayLogIn, startedOn, Wait.isLoggingIn]
  | stopped => simp [Ready, mayLogIn, Client.stopped, Wait.isLoggingIn]
  | received =>
    rw [handleAll_client]
    exact ready.keep rfl rfl
  | hungUp | broke =>
    intro hlog
    rw [mayLogIn_of_ne (by simp [haltedBy])] at hlog
    have hreader := ready (by simp [mayLogIn, hlog])
    simpa [handleAll_client, haltedBy] using hreader

end

/-! ### Authenticating -/

/-- The move sends an AUTH or goes on waiting for its answer. -/
def Authenticates (client : Client) (wait : Wait) : Move → Prop
  | .begin .authenticate => wait = .nothing ∧ client.state = .connected
  | .resume => wait.isLoggingIn
  | _ => False

/-- How far an AUTH has come after a move that left some bytes on the connection: what becomes of the
wait, what is noted and which items the move has taken. A frame makes for success and a bad header for
failure. Else nothing is taken, and only the end of the stream, a read error or the deadline make for
failure. -/
inductive Verdict (now : Duration) (state : ClientState) (wait : Wait) (asked : Prop)
    (client' : Client) (bytes : Bytes) (ended : Prop) : Wait → List Incident → List Item → Prop
  | unasked {cause : ClientError} :
      ¬ asked → client'.state = state →
      Verdict now state wait asked client' bytes ended .nothing [.authFailed cause] []
  | accepted {frame : Frame} :
      asked → client'.state = .authenticated →
      Verdict now state wait asked client' bytes ended .nothing [.authenticated] [.frame frame]
  | rejected {fault : WireError} {cause : ClientError} :
      asked → client'.state = state →
      Verdict now state wait asked client' bytes ended .nothing [.authFailed cause]
        [.badHeader fault]
  | closed {cause : ClientError} :
      asked → client'.state = state → Unfinished bytes → ended →
      Verdict now state wait asked client' bytes ended .nothing [.authFailed cause] []
  | broken {text : String} :
      asked → client'.state = state →
      Verdict now state wait asked client' bytes ended .nothing
        [.authFailed (.frame (.io text))] []
  | late {deadline : Duration} {cause : ClientError} :
      asked → client'.state = state → Unfinished bytes → wait = .auth deadline →
      deadline ≤ now →
      Verdict now state wait asked client' bytes ended .nothing [.authFailed cause] []
  | waits {deadline : Duration} :
      asked → client'.state = state → Unfinished bytes → ¬ ended → now < deadline →
      Verdict now state wait asked client' bytes ended (.auth deadline) [] []

/-- The AUTH has been written, or was before, and there is an answer or the time to wait for one. -/
def Asked (client : Client) (net : Net σ) (now : Duration) (wait : Wait) : Move → Prop
  | .begin act =>
      client.lost net now wait (.begin act) = [] ∧ client.hasty net = false
  | _ => True

section

variable {now : Duration} {client client' : Client} {net net' : Net σ} {wait wait' : Wait}
  {move : Move} {incidents : List Incident}

lemma unread_leave {reader : Reader} (hlt : reader.conn < net.links.length) (buffer : Bytes)
    (incoming : List Delivery) :
    (net.leave reader.conn incoming).unread { reader with buffer } =
      buffer ++ Delivery.bytes incoming := by
  rw [Net.unread, Net.incoming_leave hlt, if_pos rfl]

/-- An answer that is there when the AUTH is written is still there afterwards. -/
lemma pending_of_grown {gain : ConnId → Bytes} (grown : net.Grown net' gain) (reader : Reader)
    (h : (Inbound.poll reader.buffer (net'.incoming reader.conn)).1 = .pending) :
    (Inbound.poll reader.buffer (net.incoming reader.conn)).1 = .pending := by
  rw [(Inbound.polls_poll _ _).pending_iff] at h ⊢
  obtain ⟨hunfinished, hgoes⟩ := h
  rw [grown.bytes, ← List.append_assoc] at hunfinished
  exact ⟨hunfinished.of_append, fun hhalting => hgoes (grown.halting _ hhalting)⟩

lemma hasty_of_pending {reader : Reader} (hr : client.reader = some reader)
    (hlimit : now + client.settings.authTimeout ≤ now)
    (hpending : (Inbound.poll reader.buffer (net.incoming reader.conn)).1 = .pending) :
    client.hasty net = true := by
  have hzero : client.settings.authTimeout = 0 :=
    Nat.le_zero.mp (Nat.le_of_add_le_add_left hlimit)
  simp [hasty, hr, hzero, hpending]

lemma Looked.verdict {deadline : Duration} {reader : Reader} {asked : Prop}
    (h : Looked now deadline client net client' net' wait' incidents)
    (hr : client.reader = some reader) (hlt : reader.conn < net.links.length) (hasked : asked)
    (hwait : (Inbound.poll reader.buffer (net.incoming reader.conn)).1 = .pending →
      deadline ≤ now → wait = .auth deadline) :
    ∃ reader', client'.reader = some reader' ∧ reader'.conn = reader.conn ∧
      Verdict now client.state wait asked client' (net'.unread reader')
        (Delivery.Ended (net'.incoming reader.conn)) wait' incidents (client.polled net reader.conn) := by
  have hpolls := Inbound.polls_poll reader.buffer (net.incoming reader.conn)
  have hrest := hpolls.last
  have hunfinished := hpolls.unfinished
  have hitems {answer : Polled} {buffer : Bytes} {incoming : List Delivery}
      (hp : Inbound.poll reader.buffer (net.incoming reader.conn) = (answer, buffer, incoming)) :
      client.polled net reader.conn = answer.items := by
    simp only [polled, hr, if_true, hp]
  have hincoming (incoming : List Delivery) :
      (net.leave reader.conn incoming).incoming reader.conn = incoming := by
    rw [Net.incoming_leave hlt, if_pos rfl]
  cases h with
  | noReader hnone =>
    rw [hr] at hnone
    cases hnone
  | @answered reader₁ frame buffer incoming hr' hp =>
    obtain rfl : reader = reader₁ := Option.some.inj (hr.symm.trans hr')
    refine ⟨_, rfl, rfl, ?_⟩
    rw [hitems hp]
    exact .accepted hasked rfl
  | @failed reader₁ answer buffer incoming cause hr' hp hno hlate hfault =>
    obtain rfl : reader = reader₁ := Option.some.inj (hr.symm.trans hr')
    rw [hp] at hrest hunfinished
    refine ⟨_, rfl, rfl, ?_⟩
    rw [hitems hp, unread_leave hlt, hincoming]
    cases answer with
    | item found =>
      cases found with
      | frame frame => exact absurd rfl (hno frame)
      | badHeader fault => exact .rejected hasked rfl
    | closed =>
      obtain ⟨later, hlater⟩ := hrest.2 rfl
      subst hlater
      refine .closed hasked rfl ?_ List.mem_cons_self
      rw [Delivery.bytes, List.append_nil]
      exact hunfinished rfl
    | fault text =>
      rw [hfault text rfl]
      exact .broken hasked rfl
    | pending =>
      have hnil := hrest.1 rfl
      subst hnil
      refine .late hasked rfl ?_ (hwait (by rw [hp]) (hlate rfl)) (hlate rfl)
      rw [Delivery.bytes, List.append_nil]
      exact hunfinished rfl
  | @waits reader₁ buffer incoming hr' hp hlt' =>
    obtain rfl : reader = reader₁ := Option.some.inj (hr.symm.trans hr')
    rw [hp] at hrest hunfinished
    have hnil := hrest.1 rfl
    subst hnil
    refine ⟨_, rfl, rfl, ?_⟩
    rw [hitems hp, unread_leave hlt, hincoming]
    refine .waits hasked rfl ?_ List.not_mem_nil hlt'
    rw [Delivery.bytes, List.append_nil]
    exact hunfinished rfl

theorem Moved.verdict (h : Moved now client net wait move client' net' wait' incidents)
    (sound : net.Sound) (tidy : client.Tidy net.links.length) (wired : client.Wired wait)
    (ready : client.Ready wait) (hauth : client.Authenticates wait move) :
    ∃ reader reader', client.reader = some reader ∧ client'.reader = some reader' ∧
      reader'.conn = reader.conn ∧
      Verdict now client.state wait (client.Asked net now wait move) client' (net'.unread reader')
        (Delivery.Ended (net'.incoming reader.conn)) wait' incidents
        (client.taken net now wait move reader.conn) := by
  have hlog : client.mayLogIn wait = true := by
    cases move with
    | «begin» act =>
      cases act with
      | authenticate => simp [mayLogIn, hauth.2]
      | _ => cases hauth
    | resume =>
      have hwait : wait.isLoggingIn = true := hauth
      simp [mayLogIn, hwait]
    | _ => cases hauth
  obtain ⟨reader, hr⟩ := Option.isSome_iff_exists.mp (ready hlog)
  obtain ⟨conn, hwriter⟩ := Option.isSome_iff_exists.mp (wired (.inl hlog))
  have hlt := tidy.known _ (List.mem_map_of_mem (mem_readers_of_reader hr))
  cases h with
  | still hwrites _ hover =>
    cases move with
    | «begin» act =>
      cases act with
      | authenticate => simp [writes?, hauth.1, hwriter, frame?, hauth.2] at hwrites
      | _ => cases hauth
    | resume =>
      cases wait with
      | auth deadline => exact absurd rfl (hover deadline)
      | _ => cases hauth
    | _ => cases hauth
  | unsendable hstate hnone =>
    rw [hwriter] at hnone
    cases hnone
  | unsent hstate hw hres =>
    have hlost := lost_of_write hw hres
    rw [taken_authenticate hw hres]
    refine ⟨reader, reader, hr, hr, rfl, .unasked ?_ rfl⟩
    rintro ⟨hnone, _⟩
    rw [hlost] at hnone
    cases hnone
  | hasty hstate hw hres hasty =>
    rw [taken_authenticate hw hres]
    simp only [hasty, if_true]
    refine ⟨reader, reader, hr, hr, rfl, .unasked ?_ rfl⟩
    rintro ⟨_, hpatient⟩
    simp [hasty] at hpatient
  | sent hstate hw hres hpatient hlook =>
    have grown := grown_of_write sound hw hres
    have hasked : client.Asked net now .nothing (.begin .authenticate) :=
      ⟨lost_of_write hw hres, hpatient⟩
    obtain ⟨reader', hr', hconn, hverdict⟩ := hlook.verdict hr
      (Nat.lt_of_lt_of_le hlt grown.links) hasked fun hpending hlate => by
        simp [hasty_of_pending hr hlate (pending_of_grown grown reader hpending)] at hpatient
    rw [taken_authenticate hw hres]
    simp only [hpatient, Bool.false_eq_true, if_false]
    exact ⟨reader, reader', hr, hr', hconn, hverdict⟩
  | @resumed deadline _ _ _ _ hlook =>
    have hasked : client.Asked net now (.auth deadline) .resume := trivial
    obtain ⟨reader', hr', hconn, hverdict⟩ := hlook.verdict hr hlt hasked fun _ _ => rfl
    rw [taken_resume]
    exact ⟨reader, reader', hr, hr', hconn, hverdict⟩
  | @chat act _ _ _ _ _ hm =>
    cases act with
    | authenticate => cases hm
    | _ => cases hauth
  | _ => cases hauth

/-! ### Receiving -/

lemma receiver?_putReceiver {loop loop' : ReceiveLoop} (hmem : loop ∈ client.receivers)
    (hsession : loop'.session = loop.session) :
    (client.putReceiver loop').receiver? loop.session = some loop' := by
  rw [receiver?, putReceiver]
  generalize client.receivers = receivers at hmem
  induction receivers with
  | nil => cases hmem
  | cons other receivers ih =>
    rw [List.map_cons]
    by_cases heq : other.session = loop'.session
    · rw [if_pos heq]
      exact List.find?_cons_of_pos (by simp [hsession])
    · have hne : loop ≠ other := fun h => heq (h ▸ hsession.symm)
      have hrest := (List.mem_cons.mp hmem).resolve_left hne
      rw [if_neg heq, List.find?_cons_of_neg (by simpa [hsession] using heq)]
      exact ih hrest

lemma receiver?_haltedBy (session : Nat) : (client.haltedBy session).receiver? session = none := by
  simp [receiver?, haltedBy]

/-- What a receive loop has done when it has looked: it has handled the items of all the bytes at hand,
as far as these are complete. It ends with the stream, and on a read error, which may come before the
last of the bytes. -/
inductive Attended (now : Duration) (client : Client) (net : Net σ) (loop : ReceiveLoop)
    (client' : Client) (net' : Net σ) : List Item → List Incident → Prop
  | goesOn {items : List Item} {loop' : ReceiveLoop} :
      ¬ Delivery.Ended (net.incoming loop.reader.conn) →
      client'.receiver? loop.session = some loop' → loop'.reader.conn = loop.reader.conn →
      parse (net.unread loop.reader) = (items, net'.unread loop'.reader) →
      client'.state = client.state →
      client'.pending = (client.handleAll now items).1.pending →
      Attended now client net loop client' net' items (client.handleAll now items).2
  | hungUp {items : List Item} {rest : Bytes} :
      Delivery.Ended (net.incoming loop.reader.conn) →
      client'.receiver? loop.session = none →
      parse (net.unread loop.reader) = (items, rest) →
      client'.state = .stopped →
      client'.pending = (client.handleAll now items).1.pending →
      Attended now client net loop client' net' items
        ((client.handleAll now items).2 ++ [.closedByServer])
  | broke {items : List Item} {rest : Bytes} {text : String} :
      text ∈ Delivery.faults (net.incoming loop.reader.conn) →
      client'.receiver? loop.session = none →
      Cuts (net.unread loop.reader) items rest →
      client'.state = .stopped →
      client'.pending = (client.handleAll now items).1.pending →
      Attended now client net loop client' net' items
        ((client.handleAll now items).2 ++ [.receiveFailed (.io text)])

theorem Moved.attended {session : Nat} {loop : ReceiveLoop}
    (h : Moved now client net wait (.receive session) client' net' wait' incidents)
    (tidy : client.Tidy net.links.length) (hl : client.receiver? session = some loop) :
    Attended now client net loop client' net'
      (client.taken net now wait (.receive session) loop.reader.conn) incidents := by
  obtain ⟨hmem, hsession⟩ := mem_of_receiver? hl
  have hlt := tidy.known _ (List.mem_map_of_mem
    (List.mem_append_right client.reader.toList (List.mem_map_of_mem (f := (·.reader)) hmem)))
  have hdrains := Inbound.drains_drain loop.reader.buffer (net.incoming loop.reader.conn)
  have hcuts := hdrains.cuts
  have hunfinished := hdrains.unfinished
  have hlast := hdrains.last
  have hended := hdrains.ended_iff
  have hfaults := hdrains.faults_eq
  have htaken {items : List Item} {last : Polled} {buffer : Bytes} {incoming : List Delivery}
      (hf : client.finds net session = (items, last, buffer, incoming)) :
      client.taken net now wait (.receive session) loop.reader.conn = items := by
    simp [taken, answered, looped, hl, hf]
  have hdrain : client.finds net session =
      Inbound.drain loop.reader.buffer (net.incoming loop.reader.conn) := by
    simp only [finds, hl]
  rw [← hdrain] at hcuts hunfinished hlast hended hfaults
  cases h with
  | still _ _ hover =>
    have hnone : client.receiver? session = none := hover
    rw [hl] at hnone
    cases hnone
  | @received _ _ loop₁ items buffer incoming due hl' hf =>
    obtain rfl : loop = loop₁ := Option.some.inj (hl.symm.trans hl')
    rw [hf] at hcuts hunfinished hlast hended
    obtain rfl : incoming = [] := by simpa using hlast
    rw [htaken hf]
    refine .goesOn ?_ (receiver?_putReceiver (by simpa [handleAll_client] using hmem) rfl) rfl ?_ ?_ rfl
    · rw [← hended]
      exact List.not_mem_nil
    · rw [unread_leave hlt, parse_eq_iff, Delivery.bytes, List.append_nil]
      rw [Delivery.bytes, List.append_nil] at hcuts
      exact ⟨hcuts, hunfinished⟩
    · rw [handleAll_client]
      rfl
  | @hungUp _ _ loop₁ items buffer incoming hl' hf =>
    obtain rfl : loop = loop₁ := Option.some.inj (hl.symm.trans hl')
    rw [hf] at hcuts hunfinished hlast hended
    obtain ⟨later, rfl⟩ : ∃ later, incoming = .finish :: later := by simpa using hlast
    rw [htaken hf, ← hsession]
    rw [Delivery.bytes, List.append_nil] at hcuts
    exact .hungUp (hended.mp List.mem_cons_self) (receiver?_haltedBy _)
      (parse_eq_iff.mpr ⟨hcuts, hunfinished⟩) rfl rfl
  | @broke _ _ loop₁ items text buffer incoming hl' hf =>
    obtain rfl : loop = loop₁ := Option.some.inj (hl.symm.trans hl')
    rw [hf] at hcuts hfaults
    rw [htaken hf, ← hsession]
    exact .broke (hfaults ▸ List.mem_cons_self) (receiver?_haltedBy _) hcuts rfl rfl

end

end Client

end ChatLoad
