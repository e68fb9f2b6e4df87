import ChatLoad.Proofs.Client.Move

/-! What a peer puts off lies ahead: once the agenda has been run, nothing that clients do makes anything
due at the same moment. -/

namespace ChatLoad

namespace Net

variable {σ : Type} {net : Net σ} {now : Duration}

/-- Nothing on the agenda is due. -/
def Punctual (net : Net σ) (now : Duration) : Prop :=
  ∀ entry ∈ net.agenda, now < entry.1

lemma agenda_apply (net : Net σ) (action : Action) : (net.apply action).agenda = net.agenda := by
  cases action <;> rfl

lemma punctual_runAgenda (net : Net σ) (now : Duration) : (net.runAgenda now).Punctual now := by
  have hagenda : (net.runAgenda now).agenda = net.agenda.filter (now < ·.1) := by
    rw [runAgenda]
    generalize net.agenda.filter (·.1 ≤ now) = due
    suffices h : ∀ start : Net σ,
        (due.foldl (fun net entry => net.apply entry.2) start).agenda = start.agenda from h _
    induction due with
    | nil => exact fun _ => rfl
    | cons entry due ih => exact fun start => (ih _).trans (agenda_apply start entry.2)
  intro entry he
  rw [hagenda] at he
  simpa using (List.mem_filter.mp he).2

lemma runAgenda_of_punctual (h : net.Punctual now) : net.runAgenda now = net := by
  have hdue : net.agenda.filter (·.1 ≤ now) = [] := by
    apply List.filter_eq_nil_iff.mpr
    intro entry he
    simpa using h entry he
  have hlater : net.agenda.filter (now < ·.1) = net.agenda := by
    apply List.filter_eq_self.mpr
    intro entry he
    simpa using h entry he
  simp only [runAgenda, hdue, hlater, List.foldl_nil]

lemma punctual_react (h : net.Punctual now) (reactions : List Reaction) :
    (net.react now reactions).Punctual now := by
  rw [react]
  induction reactions generalizing net with
  | nil => exact h
  | cons reaction reactions ih =>
    rw [List.foldl_cons]
    apply ih
    by_cases hafter : reaction.after = 0
    · rw [if_pos hafter]
      intro entry he
      rw [agenda_apply] at he
      exact h entry he
    · rw [if_neg hafter]
      intro entry he
      rcases List.mem_append.mp he with hold | hnew
      · exact h entry hold
      · rw [List.mem_singleton.mp hnew]
        exact Nat.lt_add_of_pos_right (Nat.pos_of_ne_zero hafter)

lemma punctual_openLink (h : net.Punctual now) : (net.openLink now).2.Punctual now := by
  refine punctual_react ?_ _
  exact h

lemma punctual_close (h : net.Punctual now) (conn : ConnId) : (net.close conn).Punctual now := by
  rw [close]
  cases net.link? conn with
  | none => exact h
  | some link =>
    simp only
    split <;> exact h

lemma punctual_drop (h : net.Punctual now) (before after : Client) :
    (net.drop before after).Punctual now := by
  rw [drop]
  induction before.held.filter fun conn => !after.held.contains conn generalizing net with
  | nil => exact h
  | cons conn conns ih => exact ih (punctual_close h conn)

lemma punctual_write {net' : Net σ} {conn : ConnId} {bytes : Bytes}
    {result : Except IoError Unit} (h : net.Punctual now)
    (hw : net.write now conn bytes = (result, net')) : net'.Punctual now := by
  rw [write] at hw
  cases hl : net.link? conn with
  | none =>
    simp only [hl, Prod.mk.injEq] at hw
    exact hw.2 ▸ h
  | some link =>
    simp only [hl] at hw
    split at hw
    · rw [Prod.mk.injEq] at hw
      exact hw.2 ▸ h
    · rw [Prod.mk.injEq] at hw
      rw [← hw.2]
      refine punctual_react ?_ _
      exact h

lemma punctual_attempt (h : net.Punctual now) : net.attempt.2.Punctual now := by
  rw [attempt]
  split <;> exact h

end Net

namespace Client

variable {σ : Type} {now : Duration} {client client' : Client} {net net' : Net σ}
  {wait wait' : Wait} {move : Move} {incidents : List Incident}

lemma Looked.punctual {deadline : Duration}
    (h : Looked now deadline client net client' net' wait' incidents) (punctual : net.Punctual now) :
    net'.Punctual now := by
  cases h <;> exact punctual

lemma Moved.punctual (h : Moved now client net wait move client' net' wait' incidents)
    (punctual : net.Punctual now) : net'.Punctual now := by
  cases h with
  | still | expired | unsendable => exact punctual
  | refused | connecting => exact Net.punctual_attempt punctual
  | late => exact Net.punctual_close (Net.punctual_openLink (Net.punctual_attempt punctual)) _
  | connected _ hopen =>
    have hopened := Net.punctual_openLink (Net.punctual_attempt punctual)
    rw [hopen] at hopened
    exact Net.punctual_drop hopened _ _
  | unsent _ _ hr | hasty _ _ hr | chat _ _ _ hr | heartbeat _ hr | beat _ _ _ hr =>
    exact Net.punctual_write punctual hr
  | sent _ _ hr _ hlook => exact hlook.punctual (Net.punctual_write punctual hr)
  | resumed hlook => exact hlook.punctual punctual
  | started | stopped => exact Net.punctual_drop punctual _ _
  | lastBeat _ _ _ hr => exact Net.punctual_drop (Net.punctual_write punctual hr) _ _
  | received | hungUp | broke => exact punctual

end Client

end ChatLoad
