import Mathlib.Data.Finset.Card
import Mathlib.Data.List.Nodup

namespace fifo

variable {α : Type} [DecidableEq α] {capacity : Nat}

/-- A key enters a bounded queue: one that is there already stays where it is, a new one goes to
    the end, and the first one leaves if the queue is full. -/
def enter (capacity : Nat) (queue : List α) (key : α) : List α :=
  if key ∈ queue then queue
  else (if capacity ≤ queue.length then queue.tail else queue) ++ [key]

/-- The keys of a sequence that are new when their turn comes. -/
def entered (capacity : Nat) : List α → List α → List α
  | _, [] => []
  | queue, key :: keys =>
    (if key ∈ queue then [] else [key]) ++ entered capacity (enter capacity queue key) keys

theorem enter_of_mem {queue : List α} {key : α} (hkey : key ∈ queue) :
    enter capacity queue key = queue := by
  rw [enter, if_pos hkey]

theorem enter_of_notMem {queue : List α} {key : α} (hkey : key ∉ queue) :
    enter capacity queue key =
      (if capacity ≤ queue.length then queue.tail else queue) ++ [key] := by
  rw [enter, if_neg hkey]

theorem mem_enter_self (capacity : Nat) (queue : List α) (key : α) :
    key ∈ enter capacity queue key := by
  unfold enter
  split
  · assumption
  · simp

theorem mem_of_mem_enter {queue : List α} {key other : α} (h : other ∈ enter capacity queue key) :
    other = key ∨ other ∈ queue := by
  unfold enter at h
  split at h
  · exact .inr h
  · rcases List.mem_append.mp h with h | h
    · right
      split at h
      · exact List.mem_of_mem_tail h
      · exact h
    · exact .inl (List.mem_singleton.mp h)

theorem nodup_enter (capacity : Nat) {queue : List α} (hqueue : queue.Nodup) (key : α) :
    (enter capacity queue key).Nodup := by
  unfold enter
  split
  · exact hqueue
  · rename_i hkey
    rw [List.nodup_append]
    split
    · refine ⟨hqueue.tail, List.nodup_singleton key, ?_⟩
      rintro a ha b hb rfl
      exact hkey (List.mem_singleton.mp hb ▸ List.mem_of_mem_tail ha)
    · refine ⟨hqueue, List.nodup_singleton key, ?_⟩
      rintro a ha b hb rfl
      exact hkey (List.mem_singleton.mp hb ▸ ha)

/-- The key that leaves is the first one, and it leaves for a new key that finds the queue full. -/
theorem leaves_iff {queue : List α} (hqueue : queue.Nodup) (key other : α) :
    other ∈ queue ∧ other ∉ enter capacity queue key ↔
      key ∉ queue ∧ capacity ≤ queue.length ∧ queue.head? = some other := by
  by_cases hkey : key ∈ queue
  · rw [enter_of_mem hkey]
    simp [hkey]
  rw [enter_of_notMem hkey]
  by_cases hfull : capacity ≤ queue.length
  · cases queue with
    | nil => simp
    | cons first rest =>
      have hfirst := (List.nodup_cons.mp hqueue).1
      rw [if_pos hfull, List.tail_cons, List.mem_cons, List.mem_append, List.mem_singleton,
        List.head?_cons, Option.some.injEq]
      constructor
      · rintro ⟨rfl | hrest, hleft⟩
        · exact ⟨hkey, hfull, rfl⟩
        · exact absurd (.inl hrest) hleft
      · rintro ⟨-, -, rfl⟩
        refine ⟨.inl rfl, ?_⟩
        rintro (hrest | rfl)
        · exact hfirst hrest
        · exact hkey List.mem_cons_self
  · rw [if_neg hfull, List.mem_append]
    simp only [hfull, false_and, and_false, iff_false, not_and, not_not]
    exact .inl

/-- A queue always has room for the key that enters it. -/
theorem length_enter_le {queue : List α} (hqueue : queue.length ≤ max 1 capacity) (key : α) :
    (enter capacity queue key).length ≤ max 1 capacity := by
  unfold enter
  split
  · exact hqueue
  · rw [List.length_append, List.length_singleton]
    split
    · rw [List.length_tail]
      omega
    · omega

/-- A key that is in the queue leaves it only after as many other keys have entered behind it
    as there is room for. `front` and `back` are what stands before and behind it. -/
theorem mem_or_le_card_entered (capacity : Nat) {key : α} (keys : List α) {front back : List α}
    (hnodup : (front ++ key :: back).Nodup) :
    key ∈ keys.foldl (enter capacity) (front ++ key :: back) ∨
      max 1 capacity ≤
        ((back ++ entered capacity (front ++ key :: back) keys).toFinset.erase key).card := by
  induction keys generalizing front back with
  | nil => simp
  | cons next keys ih =>
    rw [List.foldl_cons, entered]
    by_cases hmem : next ∈ front ++ key :: back
    · rw [enter_of_mem hmem, if_pos hmem, List.nil_append]
      exact ih hnodup
    rw [if_neg hmem]
    have hnodup' := nodup_enter capacity hnodup next
    -- the keys behind `key` are the same whether or not the queue gives up its first one
    have hset : ∀ rest : List α, back ++ ([next] ++ rest) = (back ++ [next]) ++ rest := by simp
    rw [hset]
    rw [enter_of_notMem hmem] at hnodup' ⊢
    by_cases hfull : capacity ≤ (front ++ key :: back).length
    · rw [if_pos hfull] at hnodup' ⊢
      cases front with
      | nil =>
        right
        have hback : (back ++ [next]).Nodup := by simpa using hnodup'
        have hkey : key ∉ back ++ [next] := by
          have hne : key ∉ back := (List.nodup_cons.mp hnodup).1
          simp only [List.nil_append, List.mem_cons, not_or] at hmem
          simp [hne, Ne.symm hmem.1]
        have hsubset : (back ++ [next]).toFinset ⊆
            ((back ++ [next] ++ entered capacity ((key :: back).tail ++ [next]) keys).toFinset.erase
              key) := by
          intro a ha
          rw [List.mem_toFinset] at ha
          rw [Finset.mem_erase, List.mem_toFinset]
          exact ⟨fun heq => hkey (heq ▸ ha), List.mem_append_left _ ha⟩
        have hcard := Finset.card_le_card hsubset
        rw [List.toFinset_card_of_nodup hback, List.length_append, List.length_singleton] at hcard
        rw [List.nil_append, List.length_cons] at hfull
        exact le_trans (by omega) hcard
      | cons first front =>
        have htail : (first :: front ++ key :: back).tail ++ [next] =
            front ++ key :: (back ++ [next]) := by simp
        rw [htail] at hnodup' ⊢
        exact ih hnodup'
    · rw [if_neg hfull] at hnodup' ⊢
      have hback : front ++ key :: back ++ [next] = front ++ key :: (back ++ [next]) := by simp
      rw [hback] at hnodup' ⊢
      exact ih hnodup'

end fifo
