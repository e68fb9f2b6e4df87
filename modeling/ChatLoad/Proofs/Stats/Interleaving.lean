import ChatLoad.Stats.Report
import ChatLoad.Proofs.Stats.Ranking
import Mathlib

/-! Tasks that share the statistics of a run, each with the statistics to itself for one call at a
time. In whatever order their calls come, nothing is lost, every snapshot shows what came before it
and nothing else, and the report is the same to the last bit. -/

namespace ChatLoad

/-! ### Orders -/

/-- An order of all steps of several tasks in which each task takes its own steps one by one. -/
inductive Interleaving {α : Type} : List (List α) → List α → Prop
  | done {tasks : List (List α)} (idle : ∀ task ∈ tasks, task = []) : Interleaving tasks []
  | step {before after : List (List α)} {first : α} {rest order : List α}
      (later : Interleaving (before ++ rest :: after) order) :
      Interleaving (before ++ (first :: rest) :: after) (first :: order)

namespace Interleaving

variable {α β : Type} {tasks : List (List α)} {order : List α}

/-- No step is lost and none is taken twice. -/
lemma perm (h : Interleaving tasks order) : order.Perm tasks.flatten := by
  induction h with
  | done idle => rw [List.flatten_eq_nil_iff.mpr idle]
  | @step before after first rest order _ ih =>
    simp only [List.flatten_append, List.flatten_cons, List.cons_append] at ih ⊢
    exact (ih.cons first).trans List.perm_middle.symm

/-- What is picked from the steps comes in an order of what is picked from each task. -/
lemma filterMap (f : α → Option β) (h : Interleaving tasks order) :
    Interleaving (tasks.map (·.filterMap f)) (order.filterMap f) := by
  induction h with
  | done idle =>
    refine .done fun picked hp => ?_
    obtain ⟨task, hm, rfl⟩ := List.mem_map.mp hp
    rw [idle task hm, List.filterMap_nil]
  | @step before after first rest order _ ih =>
    simp only [List.map_append, List.map_cons] at ih ⊢
    cases hf : f first with
    | none => simpa only [List.filterMap_cons_none hf] using ih
    | some picked => simpa only [List.filterMap_cons_some hf] using .step ih

/-- The first steps of an order are an order of first steps of each task. -/
lemma cut {earlier later : List α} (h : Interleaving tasks (earlier ++ later)) :
    ∃ begun, List.Forall₂ (· <+: ·) begun tasks ∧ Interleaving begun earlier := by
  induction earlier generalizing tasks with
  | nil =>
    refine ⟨tasks.map fun _ => [], ?_, .done (by simp)⟩
    exact List.forall₂_map_left_iff.mpr (List.forall₂_same.mpr fun _ _ => List.nil_prefix)
  | cons first earlier ih =>
    cases h with
    | @step before after _ rest _ later =>
      obtain ⟨begun, hb, hi⟩ := ih later
      have hbefore := List.forall₂_take_append begun before _ hb
      have hafter := List.forall₂_drop_append begun before _ hb
      rw [← List.take_append_drop before.length begun] at hi
      generalize begun.take before.length = first' at hbefore hi
      generalize begun.drop before.length = last' at hafter hi
      cases hafter with
      | cons hrest hafter =>
        exact ⟨_, List.rel_append hbefore (.cons (List.cons_prefix_cons.mpr ⟨rfl, hrest⟩) hafter),
          .step hi⟩

end Interleaving

/-! ### Calls -/

/-- What a task asks of the statistics. -/
inductive StatsCall
  | change (update : StatsUpdate)
  | snapshot (now : Duration)

namespace StatsCall

/-- How much a call adds to a counter. -/
def delta (counter : Counter) : StatsCall → Nat
  | change (.increase other delta) => if other = counter then delta else 0
  | change (.latency _) | snapshot _ => 0

def sample? : StatsCall → Option UInt64
  | change (.latency ms) => some ms
  | change (.increase _ _) | snapshot _ => none

def isSnapshot : StatsCall → Bool
  | snapshot _ => true
  | change _ => false

@[simp] lemma countP_change (update : StatsUpdate) (calls : List StatsCall) :
    (change update :: calls).countP isSnapshot = calls.countP isSnapshot :=
  List.countP_cons_of_neg Bool.false_ne_true

@[simp] lemma countP_snapshot (now : Duration) (calls : List StatsCall) :
    (snapshot now :: calls).countP isSnapshot = calls.countP isSnapshot + 1 :=
  List.countP_cons_of_pos rfl

def total (counter : Counter) (calls : List StatsCall) : Nat :=
  (calls.map (delta counter)).sum

lemma total_flatten (counter : Counter) (tasks : List (List StatsCall)) :
    total counter tasks.flatten = (tasks.map (total counter)).sum := by
  rw [total, List.map_flatten, List.sum_flatten, List.map_map]
  rfl

lemma total_of_interleaving {tasks : List (List StatsCall)} {order : List StatsCall}
    (h : Interleaving tasks order) (counter : Counter) :
    total counter order = (tasks.map (total counter)).sum := by
  rw [← total_flatten]
  exact (h.perm.map (delta counter)).sum_eq

end StatsCall

namespace Stats

open StatsCall

/-- Serves calls one by one; snapshots are returned in the order in which they were taken. -/
def serve : Stats → List StatsCall → Stats × List Snapshot
  | stats, [] => (stats, [])
  | stats, .change update :: calls => (update.apply stats).serve calls
  | stats, .snapshot now :: calls =>
      let (final, seen) := stats.serve calls
      (final, stats.snapshot now :: seen)

/-- The statistics have taken in `calls` and nothing else since they were `before`. -/
structure Shows (before : Stats) (calls : List StatsCall) (stats : Stats) : Prop where
  counters (counter : Counter) :
    stats.counters.get counter = before.counters.get counter + total counter calls
  latencies : stats.latencies.toList = before.latencies.toList ++ calls.filterMap sample?
  elapsed (now : Duration) : stats.elapsed now = before.elapsed now

namespace Shows

lemma refl (stats : Stats) : Shows stats [] stats := by
  refine ⟨fun _ => rfl, ?_, fun _ => rfl⟩
  rw [List.filterMap_nil, List.append_nil]

lemma trans {a b c : Stats} {xs ys : List StatsCall} (h₁ : Shows a xs b) (h₂ : Shows b ys c) :
    Shows a (xs ++ ys) c := by
  refine ⟨fun counter => ?_, ?_, fun now => ?_⟩
  · rw [h₂.counters, h₁.counters, total, total, total, List.map_append, List.sum_append,
      Nat.add_assoc]
  · rw [h₂.latencies, h₁.latencies, List.filterMap_append, List.append_assoc]
  · rw [h₂.elapsed, h₁.elapsed]

lemma change (stats : Stats) (update : StatsUpdate) :
    Shows stats [.change update] (update.apply stats) := by
  cases update with
  | increase counter delta =>
    refine ⟨fun other => ?_, ?_, fun _ => rfl⟩
    · simp [StatsUpdate.apply, increase, Counters.get_add, total, StatsCall.delta]
    · simp [StatsUpdate.apply, increase, sample?]
  | latency ms =>
    refine ⟨fun other => ?_, ?_, fun _ => rfl⟩
    · simp [StatsUpdate.apply, addLatency, total, StatsCall.delta]
    · simp [StatsUpdate.apply, addLatency, sample?]

lemma snapshot (stats : Stats) (now : Duration) : Shows stats [.snapshot now] stats := by
  refine ⟨fun _ => rfl, ?_, fun _ => rfl⟩
  simp [sample?]

end Shows

lemma serve_append (stats : Stats) (xs ys : List StatsCall) :
    stats.serve (xs ++ ys) =
      (((stats.serve xs).1.serve ys).1, (stats.serve xs).2 ++ ((stats.serve xs).1.serve ys).2) := by
  induction xs generalizing stats with
  | nil => rfl
  | cons call xs ih =>
    cases call with
    | change update => simp only [List.cons_append, serve, ih]
    | snapshot now => simp only [List.cons_append, serve, ih]

lemma serve_shows (stats : Stats) (calls : List StatsCall) :
    Shows stats calls (stats.serve calls).1 := by
  induction calls generalizing stats with
  | nil => exact .refl stats
  | cons call calls ih =>
    cases call with
    | change update => exact (Shows.change stats update).trans (ih _)
    | snapshot now => exact (Shows.snapshot stats now).trans (ih _)

lemma serve_length (stats : Stats) (calls : List StatsCall) :
    (stats.serve calls).2.length = calls.countP isSnapshot := by
  induction calls generalizing stats with
  | nil => rfl
  | cons call calls ih =>
    cases call with
    | change update => simpa [serve] using ih _
    | snapshot now => simpa [serve] using ih _

/-- The snapshot that a call in the middle has taken is of the statistics at that point. -/
lemma serve_snapshot (stats : Stats) (earlier later : List StatsCall) (now : Duration) :
    (stats.serve (earlier ++ .snapshot now :: later)).2[earlier.countP isSnapshot]? =
      some ((stats.serve earlier).1.snapshot now) := by
  rw [serve_append, ← serve_length stats, List.getElem?_append_right (Nat.le_refl _),
    Nat.sub_self]
  rfl

/-- What a snapshot shows is what the calls before it have brought, up to some point in every task. -/
def Sees (before : Stats) (tasks : List (List StatsCall)) (order : List StatsCall)
    (position : Nat) (snapshot : Snapshot) : Prop :=
  ∃ earlier now later begun,
    order = earlier ++ .snapshot now :: later ∧
    earlier.countP isSnapshot = position ∧
    List.Forall₂ (· <+: ·) begun tasks ∧ Interleaving begun earlier ∧
    (∀ counter, snapshot.counters.get counter =
      before.counters.get counter + (begun.map (total counter)).sum) ∧
    snapshot.latencies = before.latencies.toList ++ earlier.filterMap sample? ∧
    snapshot.elapsed = before.elapsed now

lemma exists_cut_of_snapshot {calls : List StatsCall} {position : Nat}
    (h : position < calls.countP isSnapshot) :
    ∃ earlier now later, calls = earlier ++ .snapshot now :: later ∧
      earlier.countP isSnapshot = position := by
  induction calls generalizing position with
  | nil => simp at h
  | cons call calls ih =>
    cases call with
    | change update =>
      obtain ⟨earlier, now, later, rfl, hp⟩ := ih (by simpa using h)
      exact ⟨.change update :: earlier, now, later, rfl, by simpa using hp⟩
    | snapshot now =>
      cases position with
      | zero => exact ⟨[], now, calls, rfl, rfl⟩
      | succ position =>
        obtain ⟨earlier, moment, later, rfl, hp⟩ := ih (by simpa using h)
        exact ⟨.snapshot now :: earlier, moment, later, rfl, by simpa using hp⟩

lemma serve_sees (stats : Stats) {tasks : List (List StatsCall)} {order : List StatsCall}
    (h : Interleaving tasks order) {position : Nat} {snapshot : Snapshot}
    (hs : (stats.serve order).2[position]? = some snapshot) :
    stats.Sees tasks order position snapshot := by
  have hp := (List.getElem?_eq_some_iff.mp hs).1
  rw [serve_length] at hp
  obtain ⟨earlier, now, later, rfl, rfl⟩ := exists_cut_of_snapshot hp
  rw [serve_snapshot] at hs
  obtain rfl := Option.some.inj hs
  obtain ⟨begun, hb, hi⟩ := h.cut
  have shows := serve_shows stats earlier
  refine ⟨earlier, now, later, begun, rfl, rfl, hb, hi, fun counter => ?_, shows.latencies,
    shows.elapsed now⟩
  rw [← total_of_interleaving hi]
  exact shows.counters counter

lemma report_congr {stats other : Stats} {now moment : Duration}
    (hc : ∀ counter, stats.counters.get counter = other.counters.get counter)
    (hl : stats.latencies.toList.Perm other.latencies.toList)
    (he : stats.elapsed now = other.elapsed moment) :
    Report.ofSnapshot (stats.snapshot now) = Report.ofSnapshot (other.snapshot moment) := by
  simp only [Report.ofSnapshot, snapshot, Counters.ext_get hc, Latency.summary_congr hl, he]

/-- The statistics of tasks that run side by side. Counters end as the sums of what all tasks have
added, samples as an order of the samples of all tasks; every snapshot shows both at one and the same
point; and the report is the same for every order of the calls. -/
theorem interleaving_reports (stats : Stats) {tasks : List (List StatsCall)}
    {order : List StatsCall} (h : Interleaving tasks order) :
    (∀ counter, (stats.serve order).1.counters.get counter =
      stats.counters.get counter + (tasks.map (total counter)).sum) ∧
    (∃ merged, Interleaving (tasks.map (·.filterMap sample?)) merged ∧
      (stats.serve order).1.latencies.toList = stats.latencies.toList ++ merged) ∧
    ((stats.serve order).2.length = order.countP isSnapshot ∧
      ∀ position snapshot, (stats.serve order).2[position]? = some snapshot →
        stats.Sees tasks order position snapshot) ∧
    ∀ other, Interleaving tasks other → ∀ now moment,
      (stats.serve order).1.elapsed now = (stats.serve other).1.elapsed moment →
      Report.ofSnapshot ((stats.serve order).1.snapshot now) =
        Report.ofSnapshot ((stats.serve other).1.snapshot moment) := by
  have shows := serve_shows stats order
  have hc (counter : Counter) : (stats.serve order).1.counters.get counter =
      stats.counters.get counter + (tasks.map (total counter)).sum := by
    rw [shows.counters, total_of_interleaving h]
  refine ⟨hc, ⟨_, h.filterMap sample?, shows.latencies⟩,
    ⟨serve_length stats order, fun _ _ => serve_sees stats h⟩, fun other ho now moment he => ?_⟩
  have others := serve_shows stats other
  refine report_congr (fun counter => ?_) ?_ he
  · rw [hc, others.counters, total_of_interleaving ho]
  · rw [shows.latencies, others.latencies]
    have hp : order.Perm other := h.perm.trans ho.perm.symm
    exact (hp.filterMap sample?).append_left _

theorem two_tasks_report :
    let one : List StatsCall :=
      [.change (.latency 0xfff8000000000001), .change (.increase .errors 2),
        .change (.latency 0x7ff0000000000000)]
    let two : List StatsCall :=
      [.change (.latency 0x8000000000000000), .snapshot 5, .change (.increase .errors 3),
        .change (.latency 0), .change (.latency 0x7ff8000000000000)]
    let mixed : List StatsCall :=
      [.change (.latency 0x8000000000000000), .change (.latency 0xfff8000000000001), .snapshot 5,
        .change (.increase .errors 3), .change (.increase .errors 2), .change (.latency 0),
        .change (.latency 0x7ff8000000000000), .change (.latency 0x7ff0000000000000)]
    (Interleaving [one, two] mixed ∧ Interleaving [one, two] (two ++ one)) ∧
    (serve {} mixed).1.counters.errors = 5 ∧
    (serve {} mixed).1.latencies ≠ (serve {} (two ++ one)).1.latencies ∧
    Report.ofSnapshot ((serve {} mixed).1.snapshot 7) =
      Report.ofSnapshot ((serve {} (two ++ one)).1.snapshot 7) := by
  intro one two mixed
  have idle : Interleaving [[], []] ([] : List StatsCall) := .done (by simp)
  have h : Interleaving [one, two] mixed :=
    @Interleaving.step _ [_] _ _ _ _ <| @Interleaving.step _ [] _ _ _ _ <|
      @Interleaving.step _ [_] _ _ _ _ <| @Interleaving.step _ [_] _ _ _ _ <|
      @Interleaving.step _ [] _ _ _ _ <| @Interleaving.step _ [_] _ _ _ _ <|
      @Interleaving.step _ [_] _ _ _ _ <| @Interleaving.step _ [] _ _ _ _ idle
  have ho : Interleaving [one, two] (two ++ one) :=
    @Interleaving.step _ [_] _ _ _ _ <| @Interleaving.step _ [_] _ _ _ _ <|
      @Interleaving.step _ [_] _ _ _ _ <| @Interleaving.step _ [_] _ _ _ _ <|
      @Interleaving.step _ [_] _ _ _ _ <| @Interleaving.step _ [] _ _ _ _ <|
      @Interleaving.step _ [] _ _ _ _ <| @Interleaving.step _ [] _ _ _ _ idle
  obtain ⟨counters, -, -, reports⟩ := interleaving_reports {} h
  exact ⟨⟨h, ho⟩, counters .errors, by decide, reports _ ho 7 7 rfl⟩

end Stats

end ChatLoad
