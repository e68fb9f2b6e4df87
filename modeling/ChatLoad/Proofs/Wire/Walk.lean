import ChatLoad.Proofs.Wire.Fields

/-! Walks through bodies, field by field. A walk comes to the end of the bytes just if they are fields and
nothing else, and what it finds is what a payload is made of. -/

namespace ChatLoad.Field

/-- A field, and how many bytes there are up to its end. -/
structure Placed where
  field : Field
  stop : Nat
  deriving Repr, DecidableEq

structure Walk where
  found : List Placed
  outcome : Except WireError Unit

/-- Reads field after field up to the end or up to the first failure. There are `start` bytes before these. -/
def walkFrom (start : Nat) (bytes : Bytes) : Walk :=
  match _read : next bytes with
  | (.error e, _) => ⟨[], .error e⟩
  | (.ok none, _) => ⟨[], .ok ()⟩
  | (.ok (some field), rest) =>
      let stop := start + (bytes.length - rest.length)
      let later := walkFrom stop rest
      ⟨⟨field, stop⟩ :: later.found, later.outcome⟩
termination_by bytes.length
decreasing_by exact next_length _read

def walk (bytes : Bytes) : Walk :=
  walkFrom 0 bytes

namespace Walk

def fields (walk : Walk) : List Field :=
  walk.found.map (·.field)

/-- Where fields begin or end. -/
def borders (walk : Walk) : List Nat :=
  0 :: walk.found.map (·.stop)

end Walk

variable {bytes : Bytes} {fields : List Field}

@[simp] lemma walkFrom_nil (start : Nat) : walkFrom start [] = ⟨[], .ok ()⟩ := by
  rw [walkFrom]
  rfl

lemma walkFrom_spelled {front : Bytes} {field : Field} (h : Spelled front field) (start : Nat)
    (rest : Bytes) :
    walkFrom start (front ++ rest) =
      ⟨⟨field, start + front.length⟩ :: (walkFrom (start + front.length) rest).found,
        (walkFrom (start + front.length) rest).outcome⟩ := by
  have hlength : (front ++ rest).length - rest.length = front.length := by simp
  rw [walkFrom]
  split
  · simp_all [next_spelled h]
  · simp_all [next_spelled h]
  · next field' rest' hread =>
    rw [next_spelled h] at hread
    cases hread
    rw [hlength]

lemma walkFrom_broken {e : WireError} (h : Broken bytes e) (start : Nat) :
    walkFrom start bytes = ⟨[], .error e⟩ := by
  have hnext := next_broken h
  rw [walkFrom]
  split <;> simp_all

lemma walkFrom_ends (start : Nat) (bytes : Bytes) : ∃ before after, bytes = before ++ after ∧
    Written before (walkFrom start bytes).fields ∧
      (after = [] ∧ (walkFrom start bytes).outcome = .ok () ∨
        ∃ e, Broken after e ∧ (walkFrom start bytes).outcome = .error e) := by
  induction bytes using bytes_induction generalizing start with
  | nil => exact ⟨[], [], rfl, by simpa [Walk.fields] using Written.nil, .inl ⟨rfl, by simp⟩⟩
  | field front field rest hfield ih =>
    obtain ⟨before, after, hrest, hwritten, hend⟩ := ih (start + front.length)
    rw [walkFrom_spelled hfield]
    exact ⟨front ++ before, after, by rw [List.append_assoc, ← hrest], .cons hfield hwritten, hend⟩
  | broken bytes e he =>
    rw [walkFrom_broken he]
    exact ⟨[], bytes, rfl, .nil, .inr ⟨e, he, rfl⟩⟩

lemma Written.walked (h : Written bytes fields) (start : Nat) :
    (walkFrom start bytes).fields = fields ∧ (walkFrom start bytes).outcome = .ok () := by
  induction h generalizing start with
  | nil => simp [Walk.fields]
  | @cons front rest field fields hfield _ ih =>
    obtain ⟨hfields, houtcome⟩ := ih (start + front.length)
    rw [walkFrom_spelled hfield]
    exact ⟨congrArg (field :: ·) hfields, houtcome⟩

lemma written_walk (h : (walk bytes).outcome = .ok ()) : Written bytes (walk bytes).fields := by
  obtain ⟨before, after, hbytes, hwritten, ⟨rfl, -⟩ | ⟨e, -, he⟩⟩ := walkFrom_ends 0 bytes
  · rw [List.append_nil] at hbytes
    rw [← hbytes] at hwritten
    exact hwritten
  · rw [walk, he] at h
    cases h

variable {α : Type} {step : α → Field → Except WireError α} {accepts : Field → Prop}
  {refuses : Field → WireError → Prop} {take : α → Field → α}

lemma Taking.fold_walk (taking : Taking step accepts refuses take)
    (h : ∀ field ∈ (walk bytes).fields, accepts field) (start : α) :
    fold step start bytes =
      (walk bytes).outcome.map fun _ => (walk bytes).fields.foldl take start := by
  obtain ⟨before, after, hbytes, hwritten, hend⟩ := walkFrom_ends 0 bytes
  rw [← walk] at hwritten hend
  have hfold : fold step start bytes = fold step ((walk bytes).fields.foldl take start) after := by
    rw [← taking.fold_accepted hwritten h after, ← hbytes]
  rcases hend with ⟨rfl, houtcome⟩ | ⟨e, he, houtcome⟩
  · rw [hfold, fold_nil, houtcome]
    rfl
  · rw [hfold, fold_broken he, houtcome]
    rfl

end ChatLoad.Field
