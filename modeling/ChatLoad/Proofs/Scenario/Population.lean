import ChatLoad.Peer.Script
import ChatLoad.Proofs.World.Passage
import ChatLoad.Scenario.Population

/-! Setting up: every client is reached exactly once, batch after batch, whatever fails. -/

namespace ChatLoad

/-! ### Ranges -/

/-- Ranges that cut the numbers below `count` into pieces of one size, of which only the last may be
shorter. -/
structure Tiles (ranges : List (Nat × Nat)) (count size : Nat) : Prop where
  covers : (ranges.flatMap fun range => List.range' range.1 (range.2 - range.1)) = List.range count
  apart : ranges.Pairwise fun range later => range.2 ≤ later.1
  nonempty : ∀ range ∈ ranges, range.1 < range.2
  bounded : ∀ range ∈ ranges, range.2 ≤ count ∧ range.2 - range.1 ≤ size
  full : ∀ range ∈ ranges.dropLast, range.2 - range.1 = size

namespace Tiles

variable {ranges : List (Nat × Nat)} {count size : Nat}

lemma sum_sizes (tiles : Tiles ranges count size) :
    (ranges.map fun range => range.2 - range.1).sum = count := by
  have hlength := congrArg List.length tiles.covers
  simpa [List.length_flatMap] using hlength

lemma exists_range (tiles : Tiles ranges count size) {position : Nat} (h : position < count) :
    ∃ range ∈ ranges, range.1 ≤ position ∧ position < range.2 := by
  have hmem : position ∈ ranges.flatMap fun range => List.range' range.1 (range.2 - range.1) := by
    rw [tiles.covers]
    exact List.mem_range.mpr h
  obtain ⟨range, hrange, hin⟩ := List.mem_flatMap.mp hmem
  obtain ⟨hle, hlt⟩ := List.mem_range'_1.mp hin
  exact ⟨range, hrange, hle, by omega⟩

lemma covers_pieces (count size pieces : Nat) (h : ∀ i < pieces, i * size < count) :
    ((List.range pieces).flatMap fun i =>
        List.range' (i * size) (min ((i + 1) * size) count - i * size)) =
      List.range (min (pieces * size) count) := by
  induction pieces with
  | zero => simp
  | succ pieces ih =>
    have hlast := h pieces (Nat.lt_succ_self _)
    have hnext : pieces * size ≤ (pieces + 1) * size := Nat.mul_le_mul_right _ (Nat.le_succ _)
    have hjoin := @List.range'_append_1 0 (pieces * size)
      (min ((pieces + 1) * size) count - pieces * size)
    rw [Nat.zero_add] at hjoin
    rw [List.range_succ, List.flatMap_append, ih fun i hi => h i (Nat.lt_succ_of_lt hi),
      Nat.min_eq_left (Nat.le_of_lt hlast), List.range_eq_range', List.flatMap_singleton, hjoin,
      List.range_eq_range']
    congr 1
    omega

theorem batchRanges (count size : Nat) : Tiles (batchRanges count size) count (max size 1) := by
  have hsize : 0 < max size 1 := by omega
  rw [ChatLoad.batchRanges]
  generalize max size 1 = size at hsize ⊢
  have hpieces (i : Nat) : i < (count + size - 1) / size ↔ i * size < count := by
    rw [← Nat.add_one_le_iff, Nat.le_div_iff_mul_le hsize, Nat.add_one_mul]
    omega
  have hend : count ≤ (count + size - 1) / size * size := by
    by_contra hless
    exact absurd ((hpieces _).mpr (Nat.lt_of_not_le hless)) (Nat.lt_irrefl _)
  have hstep (i : Nat) : (i + 1) * size = i * size + size := Nat.add_one_mul _ _
  refine ⟨?_, ?_, ?_, ?_, ?_⟩
  · rw [List.flatMap_map]
    refine (covers_pieces count size _ fun i hi => (hpieces i).mp hi).trans ?_
    rw [Nat.min_eq_right hend]
  · refine List.pairwise_map.mpr (List.pairwise_lt_range.imp fun {i j} hij => ?_)
    exact (Nat.min_le_left _ _).trans (Nat.mul_le_mul_right size hij)
  · intro range hrange
    obtain ⟨i, hi, rfl⟩ := List.mem_map.mp hrange
    have hlt := (hpieces i).mp (List.mem_range.mp hi)
    simp only [hstep]
    omega
  · intro range hrange
    obtain ⟨i, _, rfl⟩ := List.mem_map.mp hrange
    simp only [hstep]
    omega
  · intro range hrange
    rw [← List.map_dropLast, List.dropLast_eq_take, List.take_range, List.length_range] at hrange
    obtain ⟨i, hi, rfl⟩ := List.mem_map.mp hrange
    rw [List.mem_range] at hi
    have hlt := (hpieces (i + 1)).mp (by omega)
    simp only [hstep] at hlt ⊢
    omega

end Tiles

namespace World

variable {σ : Type}

/-! ### Batches -/

/-- Acts that send no message. -/
def Silent (_position : Nat) (act : Act) : Prop :=
  act.isChat = false

section

variable (world : World σ)

def batchRoutine (range : Nat × Nat) (position : Nat) (_agent : Agent) : List Act :=
  if range.1 ≤ position ∧ position < range.2 then
    [.connect world.settings.connectTimeout, .pause world.settings.connectStagger, .authenticate]
  else []

def batchMoves (range : Nat × Nat) : List Happening :=
  world.assignMoves (world.batchRoutine range)

def startRoutine (_position : Nat) (agent : Agent) : List Act :=
  if agent.client.isAuthenticated then [.start world.settings.heartbeatInterval] else []

def batchesMoves (count : Nat) : World σ → List (Nat × Nat) → List Happening
  | _, [] => []
  | world, range :: ranges => world.batchMoves range ++ batchesMoves count (connectBatch count world range) ranges

end

/-- A client of the batch logs in, and nothing happens to any other. -/
def InBatch (range : Nat × Nat) (position : Nat) (standing : Standing) (story : List Incident) :
    Prop :=
  standing.looping = false →
    if range.1 ≤ position ∧ position < range.2 then ∃ ok, Login story ok else story = []

lemma InBatch.looping {range : Nat × Nat} {position : Nat} {standing : Standing}
    {story : List Incident} (h : InBatch range position standing story)
    (hlooping : standing.looping = false) : (standing.afterAll story).looping = false := by
  have hstory := h hlooping
  split at hstory
  · obtain ⟨ok, hlogin⟩ := hstory
    rw [hlogin.looping, hlooping]
  · rw [hstory]
    exact hlooping

/-- Whoever has no loops gets none. -/
def Loopless (_position : Nat) (standing : Standing) (story : List Incident) : Prop :=
  standing.looping = false → (standing.afterAll story).looping = false

/-- Nobody has anything to do, nor any loops. -/
structure Calm (world : World σ) : Prop where
  idle : world.isIdle
  numbered : world.Numbered
  stands : ∀ {position : Nat} {agent : Agent}, world.agents[position]? = some agent →
    ∃ standing, agent.client.Stands .nothing standing ∧ standing.looping = false

lemma Passage.calm {allows : Nat → Act → Prop} {fits : Nat → Standing → List Incident → Prop}
    {world other : World σ} {moves : List Happening}
    (passage : Passage allows fits world moves other) (calm : world.Calm)
    (hfits : ∀ {position standing story}, fits position standing story →
      Loopless position standing story) : other.Calm where
  idle := passage.idle
  numbered := passage.numbered calm.numbered
  stands := fun ha' => by
    obtain ⟨agent, ha⟩ := passage.agent_before ha'
    obtain ⟨standing, stands, hlooping⟩ := calm.stands ha
    exact ⟨_, passage.stands ha ha' standing stands,
      hfits (passage.fits ha standing stands) hlooping⟩

section

variable {world : World σ} {count : Nat} {range : Nat × Nat} {ranges : List (Nat × Nat)}

theorem connectBatch_passage (idle : world.isIdle)
    (h : (connectBatch count world range).interrupted = false) :
    Passage Silent (InBatch range) world (world.batchMoves range) (connectBatch count world range) := by
  refine Passage.note
    (@assign_passage _ _ _ _ idle (world.batchRoutine range) (interrupted_of_note h) ?_ ?_) _ _
  · intro position agent standing story _ _ htale hlooping
    obtain ⟨state, looping⟩ := standing
    subst hlooping
    rw [batchRoutine] at htale
    split at htale
    · next hin => exact (if_pos hin).mpr htale.login
    · next hout => exact (if_neg hout).mpr (htale.of_alone rfl)
  · intro position agent act _ hact
    rw [batchRoutine] at hact
    split at hact
    · simp only [List.mem_cons, List.not_mem_nil, or_false] at hact
      rcases hact with rfl | rfl | rfl <;> rfl
    · cases hact

/-- What happens while a batch logs in. -/
structure Batch (range : Nat × Nat) (chapter : List (UInt64 × Incident)) : Prop where
  inside : ∀ told ∈ chapter, range.1 < told.1.toNat ∧ told.1.toNat ≤ range.2
  logins : ∀ number, range.1 < number → number ≤ range.2 → ∃ ok, Login (toldOf number chapter) ok

lemma Passage.batch {allows : Nat → Act → Prop} {other : World σ} {moves : List Happening}
    (passage : Passage allows (InBatch range) world moves other) (calm : world.Calm)
    (hrange : range.2 ≤ world.agents.length) : Batch range (world.trace happened moves) := by
  have htold {position : Nat} {agent : Agent} (ha : world.agents[position]? = some agent) :
      if range.1 ≤ position ∧ position < range.2 then
        ∃ ok, Login (toldOf (position + 1) (world.trace happened moves)) ok
      else toldOf (position + 1) (world.trace happened moves) = [] := by
    obtain ⟨standing, stands, hlooping⟩ := calm.stands ha
    rw [calm.numbered.toldOf_happened]
    exact passage.fits ha standing stands hlooping
  refine ⟨fun told ht => ?_, fun number hlow hhigh => ?_⟩
  · obtain ⟨position, agent, ha, hnumber⟩ := calm.numbered.mem_happened ht
    have hstory := htold ha
    split at hstory
    · omega
    · rw [← hnumber] at hstory
      exact absurd hstory (toldOf_ne_nil ht)
  · obtain ⟨position, rfl⟩ : ∃ position, number = position + 1 := ⟨number - 1, by omega⟩
    have hlogin := htold (List.getElem?_eq_getElem (by omega : position < world.agents.length))
    rwa [if_pos (by omega)] at hlogin

lemma interrupted_of_batches
    (h : (ranges.foldl (connectBatch count) world).interrupted = false) :
    world.interrupted = false := by
  induction ranges generalizing world with
  | nil => exact h
  | cons range ranges ih => exact interrupted_of_assign (interrupted_of_note (ih h))

theorem batches_passage (calm : world.Calm)
    (hranges : ∀ range ∈ ranges, range.2 ≤ world.agents.length)
    (h : (ranges.foldl (connectBatch count) world).interrupted = false) :
    Passage Silent Loopless world (world.batchesMoves count ranges)
      (ranges.foldl (connectBatch count) world) ∧
    ∃ chapters, world.trace happened (world.batchesMoves count ranges) = chapters.flatten ∧
      List.Forall₂ Batch ranges chapters := by
  induction ranges generalizing world with
  | nil =>
    refine ⟨Passage.imp (.at_ease calm.idle (.of_leads (.of_same (.refl _) rfl rfl) rfl)) ?_,
      [], rfl, .nil⟩
    intro position standing story hstory hlooping
    rw [hstory.of_alone hlooping]
    exact hlooping
  | cons range ranges ih =>
    obtain ⟨hrange, hlater⟩ := List.forall_mem_cons.mp hranges
    have hbatch := connectBatch_passage calm.idle (interrupted_of_batches h)
    have hcalm := hbatch.calm calm InBatch.looping
    rw [← hbatch.length] at hlater
    obtain ⟨hrest, chapters, hflatten, hchapters⟩ := ih hcalm hlater h
    refine ⟨(hbatch.trans hrest).imp ?_, _ :: chapters, ?_, .cons (hbatch.batch calm hrange) hchapters⟩
    · rintro position standing story ⟨before, after, rfl, hbefore, hafter⟩ hlooping
      rw [Standing.afterAll_append]
      exact hafter (hbefore.looping hlooping)
    · rw [batchesMoves, trace_append, happened, hbatch.same.trace_all, List.flatten_cons]
      exact congrArg _ hflatten

lemma toldOf_batches {chapters : List (List (UInt64 × Incident))}
    (h : List.Forall₂ Batch ranges chapters) {number : Nat}
    (hout : ∀ range ∈ ranges, ¬ (range.1 < number ∧ number ≤ range.2)) :
    toldOf number chapters.flatten = [] := by
  induction h with
  | nil => rfl
  | cons hbatch _ ih =>
    obtain ⟨hfirst, hlater⟩ := List.forall_mem_cons.mp hout
    rw [List.flatten_cons, toldOf_append, ih hlater, List.append_nil]
    refine List.filterMap_eq_nil_iff.mpr fun told ht => if_neg ?_
    rintro rfl
    exact hfirst (hbatch.inside told ht)

/-- In batches whose ranges lie apart, each client logs in once. -/
lemma login_of_batches {chapters : List (List (UInt64 × Incident))}
    (h : List.Forall₂ Batch ranges chapters)
    (apart : ranges.Pairwise fun range later => range.2 ≤ later.1) {number : Nat}
    (hin : ∃ range ∈ ranges, range.1 < number ∧ number ≤ range.2) :
    ∃ ok, Login (toldOf number chapters.flatten) ok := by
  induction h with
  | nil =>
    obtain ⟨_, hrange, _⟩ := hin
    cases hrange
  | @cons range chapter ranges chapters hbatch hlater ih =>
    obtain ⟨hapart, hrest⟩ := List.pairwise_cons.mp apart
    rw [List.flatten_cons, toldOf_append]
    by_cases hmine : range.1 < number ∧ number ≤ range.2
    · rw [toldOf_batches hlater fun later hl => ?_, List.append_nil]
      · exact hbatch.logins number hmine.1 hmine.2
      · have := hapart later hl
        omega
    · obtain ⟨other, hother, hnumber⟩ := hin
      have hfirst := toldOf_batches (.cons hbatch .nil) (List.forall_mem_singleton.mpr hmine)
      rw [List.flatten_singleton] at hfirst
      rw [hfirst, List.nil_append]
      rcases List.mem_cons.mp hother with rfl | hmem
      · exact absurd hnumber hmine
      · exact ih hrest ⟨other, hmem, hnumber⟩

end

/-! ### Starting -/

/-- Of clients without loops just those are started that are logged in. -/
def Started (_position : Nat) (standing : Standing) (story : List Incident) : Prop :=
  standing.looping = false → standing.state ≠ .running →
    Starting (standing.state = .authenticated) story

theorem start_passage {world : World σ} (idle : world.isIdle)
    (h : world.startAuthenticated.interrupted = false) :
    Passage Silent Started world (world.assignMoves world.startRoutine) world.startAuthenticated := by
  refine @assign_passage _ _ _ _ idle world.startRoutine h ?_ ?_
  · intro position agent standing story _ stands htale hlooping hrunning
    obtain ⟨state, looping⟩ := standing
    subst hlooping
    have hauth : agent.client.isAuthenticated ↔ state = .authenticated := by
      have hnot : state ≠ .running := hrunning
      simp [Client.isAuthenticated, stands.state, hnot]
    rw [startRoutine] at htale
    by_cases hstate : state = .authenticated
    · rw [if_pos (hauth.mpr hstate), hstate] at htale
      simpa [hstate] using htale.of_start
    · rw [if_neg (mt hauth.mp hstate)] at htale
      simpa [hstate, Starting] using htale.of_alone rfl
  · intro position agent act _ hact
    rw [startRoutine] at hact
    split at hact
    · obtain rfl := List.mem_singleton.mp hact
      rfl
    · cases hact

/-! ### Setting up -/

section

variable (world : World σ) (count : Nat)

/-- The new clients, before anything is done. -/
def populated : World σ :=
  (world.note .info s!"Creating {count} client connections...").populate count

def batches : List (Nat × Nat) :=
  batchRanges count (min world.settings.batchSize count)

def loggedIn : World σ :=
  (world.batches count).foldl (connectBatch count) (world.populated count)

def setUpMoves : List Happening :=
  (world.populated count).batchesMoves count (world.batches count) ++
    (world.loggedIn count).assignMoves (world.loggedIn count).startRoutine

lemma length_populated : (world.populated count).agents.length = count := by
  simp [populated, populate]

lemma doings_populated : (world.populated count).doings = world.doings := by
  have hdoings : (world.populated count).doings =
      (world.note .info s!"Creating {count} client connections...").doings := rfl
  rw [hdoings]
  simp [doings, note, record, Event.doing?]

lemma populated_agent {world : World σ} {count position : Nat} {agent : Agent}
    (h : (world.populated count).agents[position]? = some agent) :
    position < count ∧
      agent = { client := { id := UInt64.ofNat (position + 1), settings := world.settings } } := by
  rw [populated, populate, List.getElem?_map] at h
  obtain ⟨i, hi, rfl⟩ := Option.map_eq_some_iff.mp h
  obtain ⟨hlt, rfl⟩ := List.getElem?_eq_some_iff.mp hi
  rw [List.length_range] at hlt
  rw [List.getElem_range]
  exact ⟨hlt, rfl⟩

lemma populated_stands {world : World σ} {count position : Nat} {agent : Agent}
    (h : (world.populated count).agents[position]? = some agent) :
    agent.client.Stands .nothing ⟨.disconnected, false⟩ := by
  rw [(populated_agent h).2]
  exact Client.fresh_stands _ _

variable {count}

lemma populated_calm (hcount : count < 2 ^ 64) : (world.populated count).Calm where
  idle := by simp [isIdle, populated, populate, Agent.isIdle]
  numbered := fun position agent ha => by
    obtain ⟨hlt, rfl⟩ := populated_agent ha
    exact UInt64.toNat_ofNat_of_lt' (Nat.lt_of_le_of_lt hlt hcount)
  stands := fun ha => ⟨_, populated_stands ha, rfl⟩

variable {world}

/-- Every new client is admitted. -/
def Admitted (_position : Nat) (standing : Standing) (story : List Incident) : Prop :=
  standing = ⟨.disconnected, false⟩ → Admission story

lemma setUp_eq (h : (world.setUp count).1.interrupted = false) :
    ∃ text, world.setUp count =
      ((world.loggedIn count).startAuthenticated.noteUnlessInterrupted .info text,
        (world.batches count).map fun range => range.2 - range.1) := by
  by_cases hinterrupted : world.interrupted
  · rw [setUp, if_pos hinterrupted, hinterrupted] at h
    cases h
  · rw [setUp, if_neg hinterrupted]
    exact ⟨_, rfl⟩

lemma loggedIn_passage (hcount : count < 2 ^ 64) (h : (world.loggedIn count).interrupted = false) :
    Passage Silent Loopless (world.populated count)
      ((world.populated count).batchesMoves count (world.batches count)) (world.loggedIn count) ∧
    ∃ chapters,
      (world.populated count).trace happened
        ((world.populated count).batchesMoves count (world.batches count)) = chapters.flatten ∧
      List.Forall₂ Batch (world.batches count) chapters ∧
      ∀ position < count, ∃ ok, Login (toldOf (position + 1) chapters.flatten) ok := by
  have tiles := Tiles.batchRanges count (min world.settings.batchSize count)
  obtain ⟨hbatches, chapters, hflatten, hchapters⟩ := batches_passage (world.populated_calm hcount)
    (fun range hrange => by
      rw [length_populated]
      exact (tiles.bounded range hrange).1) h
  refine ⟨hbatches, chapters, hflatten, hchapters, fun position hlt => ?_⟩
  obtain ⟨range, hrange, hin⟩ := tiles.exists_range hlt
  exact login_of_batches hchapters tiles.apart ⟨range, hrange, by omega, by omega⟩

theorem setUp_passage (hcount : count < 2 ^ 64) (h : (world.setUp count).1.interrupted = false) :
    Passage Silent Admitted (world.populated count) (world.setUpMoves count) (world.setUp count).1 ∧
    ∃ chapters starts,
      (world.populated count).trace happened (world.setUpMoves count) = chapters.flatten ++ starts ∧
      List.Forall₂ Batch (world.batches count) chapters ∧
      (∀ told ∈ starts, 0 < told.1.toNat ∧ told.1.toNat ≤ count) ∧
      ∀ position < count, ∃ ok, Login (toldOf (position + 1) chapters.flatten) ok ∧
        Starting ok (toldOf (position + 1) starts) := by
  obtain ⟨text, hsetUp⟩ := setUp_eq h
  rw [hsetUp] at h ⊢
  have hstarted := interrupted_of_note h
  have calm := world.populated_calm hcount
  obtain ⟨hlogged, chapters, hflatten, hchapters, hlogins⟩ :=
    loggedIn_passage hcount (interrupted_of_assign hstarted)
  have hstart := start_passage hlogged.idle hstarted
  have numbered := hlogged.numbered calm.numbered
  have hlength := hlogged.length.trans (length_populated world count)
  have hall := (hlogged.trans hstart).note .info text
  have hadmitted : ∀ position < count, ∃ ok, Login (toldOf (position + 1) chapters.flatten) ok ∧
      Starting ok (toldOf (position + 1) ((world.loggedIn count).trace happened
        ((world.loggedIn count).assignMoves (world.loggedIn count).startRoutine))) := by
    -- a client is authenticated after its batch just if its login went well, and only then started
    intro position hlt
    obtain ⟨ok, hlogin⟩ := hlogins position hlt
    refine ⟨ok, hlogin, ?_⟩
    have ha := List.getElem?_eq_getElem ((length_populated world count).symm ▸ hlt)
    have ha' := List.getElem?_eq_getElem (hlength.symm ▸ hlt)
    have stands := populated_stands ha
    have stands' := hlogged.stands ha ha' _ stands
    rw [← hflatten, calm.numbered.toldOf_happened] at hlogin
    rw [numbered.toldOf_happened]
    obtain ⟨hok, hrunning⟩ := @Login.state _ _ ⟨.disconnected, false⟩ hlogin ⟨nofun, nofun⟩
    have hstarts := hstart.fits ha' _ stands' (hlogged.fits ha _ stands rfl) hrunning
    rwa [Bool.eq_iff_iff.mpr (decide_eq_true_iff.trans hok)] at hstarts
  refine ⟨{ hall with fits := fun {position agent} ha standing stands hfirst => ?_ }, chapters, _, ?_,
    hchapters, fun told ht => ?_, hadmitted⟩
  · obtain ⟨ok, hlogin, hstarts⟩ := hadmitted position (populated_agent ha).1
    rw [← hflatten, calm.numbered.toldOf_happened] at hlogin
    rw [numbered.toldOf_happened] at hstarts
    exact ⟨_, _, ok, hlogged.notes_append _ _, hlogin, hstarts⟩
  · rw [setUpMoves, trace_append, hflatten, happened, hlogged.same.trace_all]
  · obtain ⟨position, agent, ha, hnumber⟩ := numbered.mem_happened ht
    have hlt := (List.getElem?_eq_some_iff.mp ha).1
    omega

/-- What setting up makes of a world, if it connects clients in batches of these ranges, and whatever
becomes of each of them. -/
structure ReachesAll (world : World σ) (count : Nat) (ranges : List (Nat × Nat)) (after : World σ) :
    Prop where
  ids : (after.agents.map fun agent => agent.client.id.toNat) = List.range' 1 count
  /-- each batch logs in before the next, and whoever has logged in is started in the end -/
  told : ∃ chapters starts, after.doings = world.doings ++ chapters.flatten ++ starts ∧
    List.Forall₂ Batch ranges chapters ∧
    (∀ told ∈ starts, 0 < told.1.toNat ∧ told.1.toNat ≤ count) ∧
    ∀ number, 0 < number → number ≤ count → ∃ ok, Login (toldOf number chapters.flatten) ok ∧
      Starting ok (toldOf number starts)
  counted : ∃ gained : Counter → Nat,
    (∀ c, after.stats.counters.get c = world.stats.counters.get c + gained c) ∧
    gained .connectionsAttempted = count ∧
    gained .connectionsSucceeded + gained .connectionsFailed = count ∧
    gained .authSucceeded + gained .authFailed = gained .connectionsSucceeded

lemma Numbered.ids {after : World σ} (h : after.Numbered) :
    (after.agents.map fun agent => agent.client.id.toNat) = List.range' 1 after.agents.length := by
  refine List.ext_getElem (by simp) fun i hi _ => ?_
  rw [List.length_map] at hi
  rw [List.getElem_map, List.getElem_range', h i _ (List.getElem?_eq_getElem hi)]
  omega

/-- Setting up reaches every client once, in batches of bounded size, whatever fails. -/
theorem setUp_reaches_all (world : World σ) {count : Nat} (hcount : count < 2 ^ 64)
    (h : (world.setUp count).1.interrupted = false) :
    let ranges := batchRanges count (min world.settings.batchSize count)
    Tiles ranges count (max 1 (min world.settings.batchSize count)) ∧
    (world.setUp count).2 = ranges.map (fun range => range.2 - range.1) ∧
    (world.setUp count).2.sum = count ∧
    world.ReachesAll count ranges (world.setUp count).1 := by
  have tiles := Tiles.batchRanges count (min world.settings.batchSize count)
  have hsizes : (world.setUp count).2 =
      (world.batches count).map fun range => range.2 - range.1 := by
    obtain ⟨text, hsetUp⟩ := setUp_eq h
    rw [hsetUp]
  obtain ⟨passage, chapters, starts, htrace, hchapters, hstarts, hadmitted⟩ := setUp_passage hcount h
  refine ⟨Nat.max_comm _ _ ▸ tiles, hsizes, hsizes ▸ tiles.sum_sizes, ?_, ?_, ?_⟩
  · rw [(passage.numbered (world.populated_calm hcount).numbered).ids, passage.length,
      length_populated]
  · refine ⟨chapters, starts, ?_, hchapters, hstarts, fun number hpos hle => ?_⟩
    · rw [passage.doings, htrace, doings_populated, List.append_assoc]
    · obtain ⟨position, rfl⟩ : ∃ position, number = position + 1 := ⟨number - 1, by omega⟩
      exact hadmitted position hle
  · refine ⟨_, fun c => passage.counted c, ?_⟩
    have hone {position : Nat} (hposition : position ∈ Finset.range count) :
        Admission ((world.populated count).notes position (world.setUpMoves count)) := by
      have ha := List.getElem?_eq_getElem
        ((length_populated world count).symm ▸ Finset.mem_range.mp hposition)
      exact passage.fits ha _ (populated_stands ha) rfl
    simp only [length_populated, ← Finset.sum_add_distrib]
    refine ⟨?_, ?_, Finset.sum_congr rfl fun position hp => (hone hp).counted.2.2.1⟩
    · rw [Finset.sum_congr rfl fun position hp => (hone hp).counted.1]
      simp
    · rw [Finset.sum_congr rfl fun position hp => (hone hp).counted.2.1]
      simp

end

/-- Of the first two clients one is refused; the AUTH of the third is never answered. -/
def mixed : World Script where
  net :=
    { peer := Script.peer
      memory := { cues := [Cue.acknowledge, { lines := [] }] }
      foreseen := [.accepts, .refuses] }
  settings := { batchSize := 2 }

theorem mixed_reaches_all :
    (mixed.setUp 3).1.interrupted = false ∧ (mixed.setUp 3).2 = [2, 1] ∧
    ((mixed.setUp 3).1.agents.map fun agent => agent.client.state) =
      [.running, .disconnected, .connected] ∧
    mixed.ReachesAll 3 [(0, 2), (2, 3)] (mixed.setUp 3).1 := by
  have hends : (mixed.setUp 3).1.interrupted = false := by decide +kernel
  exact ⟨hends, by decide +kernel, by decide +kernel,
    (setUp_reaches_all mixed (by decide) hends).2.2.2⟩

end World

end ChatLoad
