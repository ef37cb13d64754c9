import Mathlib.Data.List.Forall2

/-- The outcome of a computation that may panic. A recoverable error is a value
    of the result and is kept apart as an `Except` inside it. -/
inductive Result (α : Type) where
  | ok (value : α)
  | panic
  deriving DecidableEq, Repr

namespace Result

protected def bind {α β : Type} (x : Result α) (f : α → Result β) : Result β :=
  match x with
  | ok value => f value
  | panic => panic

instance : Monad Result where
  pure := ok
  bind := Result.bind

@[simp] theorem pure_eq_ok {α : Type} (a : α) : (pure a : Result α) = ok a := rfl

@[simp] theorem bind_ok {α β : Type} (a : α) (f : α → Result β) : (ok a >>= f) = f a := rfl

@[simp] theorem bind_panic {α β : Type} (f : α → Result β) : ((panic : Result α) >>= f) = panic := rfl

theorem bind_eq_ok_iff {α β : Type} {x : Result α} {f : α → Result β} {b : β} :
    (x >>= f) = ok b ↔ ∃ a, x = ok a ∧ f a = ok b := by
  cases x <;> simp

theorem ne_panic_iff {α : Type} {x : Result α} : x ≠ panic ↔ ∃ a, x = ok a := by
  cases x <;> simp

/-- A computation whose steps never panic. -/
theorem bind_ne_panic {α β : Type} {x : Result α} {f : α → Result β} (hx : x ≠ panic)
    (hf : ∀ a, f a ≠ panic) : (x >>= f) ≠ panic := by
  obtain ⟨a, rfl⟩ := ne_panic_iff.mp hx
  exact hf a

theorem bind_ok_ne_panic_iff {α β : Type} {x : Result α} {f : α → β} :
    (x >>= fun a => ok (f a)) ≠ panic ↔ x ≠ panic := by
  cases x <;> simp

/-- A search whose tests never panic. -/
theorem anyM_ne_panic {α : Type} {f : α → Result Bool} {l : List α} (h : ∀ a ∈ l, f a ≠ panic) :
    l.anyM f ≠ panic := by
  induction l with
  | nil => exact fun h => by cases h
  | cons a l ih =>
    rw [List.forall_mem_cons] at h
    rw [List.anyM]
    refine bind_ne_panic h.1 fun found => ?_
    cases found with
    | true => exact fun h => by cases h
    | false => exact ih h.2

/-- `?` in front of the rest of a function whose error type is the same. -/
def and_then {ε α β : Type} (x : Result (Except ε α)) (f : α → Result (Except ε β)) :
    Result (Except ε β) :=
  match x with
  | ok (.ok value) => f value
  | ok (.error e) => ok (.error e)
  | panic => panic

@[simp] theorem and_then_ok {ε α β : Type} (a : α) (f : α → Result (Except ε β)) :
    and_then (ok (.ok a)) f = f a := rfl

@[simp] theorem and_then_error {ε α β : Type} (e : ε) (f : α → Result (Except ε β)) :
    and_then (ok (.error e)) f = ok (.error e) := rfl

@[simp] theorem and_then_panic {ε α β : Type} (f : α → Result (Except ε β)) :
    and_then panic f = panic := rfl

theorem and_then_eq_ok_iff {ε α β : Type} {x : Result (Except ε α)} {f : α → Result (Except ε β)}
    {b : β} : x.and_then f = ok (.ok b) ↔ ∃ a, x = ok (.ok a) ∧ f a = ok (.ok b) := by
  rcases x with ⟨_ | _⟩ | _ <;> simp

/-- A loop that pushes `f x` for every element and leaves with the first error. -/
def collect {ε α β : Type} (f : α → Result (Except ε β)) : List α → Result (Except ε (List β))
  | [] => ok (.ok [])
  | x :: xs => (f x).and_then fun y => (collect f xs).and_then fun ys => ok (.ok (y :: ys))

theorem collect_eq_ok_iff {ε α β : Type} {f : α → Result (Except ε β)} {xs : List α}
    {ys : List β} :
    collect f xs = ok (.ok ys) ↔ List.Forall₂ (fun x y => f x = ok (.ok y)) xs ys := by
  induction xs generalizing ys with
  | nil => simp [collect, eq_comm]
  | cons x xs ih =>
    simp only [collect, and_then_eq_ok_iff, ih, ok.injEq, Except.ok.injEq,
      List.forall₂_cons_left_iff]
    constructor
    · rintro ⟨y, hy, tail, htail, rfl⟩
      exact ⟨y, tail, hy, htail, rfl⟩
    · rintro ⟨y, tail, hy, htail, rfl⟩
      exact ⟨y, hy, tail, htail, rfl⟩

/-- A loop over the positions of a list that reads the list's own elements. -/
theorem collect_range_eq_ok {ε β : Type} {f : Nat → Result (Except ε β)} {ys : List β}
    (h : ∀ i (hi : i < ys.length), f i = ok (.ok ys[i])) :
    collect f (List.range ys.length) = ok (.ok ys) := by
  rw [collect_eq_ok_iff, List.forall₂_iff_get]
  refine ⟨by simp, fun i _ hi => ?_⟩
  simpa using h i hi

/-- A loop that pushes `f x` for every element. -/
def map_each {α β : Type} (f : α → Result β) : List α → Result (List β)
  | [] => ok []
  | x :: xs => do
    let y ← f x
    let ys ← map_each f xs
    ok (y :: ys)

theorem map_each_eq_ok_iff {α β : Type} {f : α → Result β} {xs : List α} {ys : List β} :
    map_each f xs = ok ys ↔ List.Forall₂ (fun x y => f x = ok y) xs ys := by
  induction xs generalizing ys with
  | nil => simp [map_each, eq_comm]
  | cons x xs ih =>
    simp only [map_each, bind_eq_ok_iff, ih, ok.injEq, List.forall₂_cons_left_iff]
    constructor
    · rintro ⟨y, hy, tail, htail, rfl⟩
      exact ⟨y, tail, hy, htail, rfl⟩
    · rintro ⟨y, tail, hy, htail, rfl⟩
      exact ⟨y, hy, tail, htail, rfl⟩

theorem map_each_ok {α β : Type} {f : α → Result β} {xs : List α} (h : ∀ x ∈ xs, ∃ y, f x = ok y) :
    ∃ ys, map_each f xs = ok ys := by
  induction xs with
  | nil => exact ⟨[], rfl⟩
  | cons x xs ih =>
    obtain ⟨y, hy⟩ := h x List.mem_cons_self
    obtain ⟨ys, hys⟩ := ih fun x' hx' => h x' (List.mem_cons_of_mem x hx')
    exact ⟨y :: ys, by rw [map_each, hy, bind_ok, hys, bind_ok]⟩

theorem exists_of_mem_map_each {α β : Type} {f : α → Result β} {xs : List α} {ys : List β}
    (h : map_each f xs = ok ys) :
    (∀ x ∈ xs, ∃ y ∈ ys, f x = ok y) ∧ ∀ y ∈ ys, ∃ x ∈ xs, f x = ok y := by
  obtain ⟨hlength, hget⟩ := List.forall₂_iff_get.mp (map_each_eq_ok_iff.mp h)
  constructor
  · intro x hx
    obtain ⟨i, hi, rfl⟩ := List.mem_iff_getElem.mp hx
    exact ⟨ys[i], List.getElem_mem _, hget i hi (hlength ▸ hi)⟩
  · intro y hy
    obtain ⟨i, hi, rfl⟩ := List.mem_iff_getElem.mp hy
    exact ⟨xs[i], List.getElem_mem _, hget i (hlength ▸ hi) hi⟩

end Result
