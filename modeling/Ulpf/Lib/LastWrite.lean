import Mathlib.Data.List.Induction
import Mathlib.Data.Option.Basic

namespace last_write

variable {α κ : Type} [DecidableEq κ] {key : α → κ}

/-- The last of a sequence of writes under a key. -/
def latest (key : α → κ) (writes : List α) (k : κ) : Option α :=
  (writes.filter fun a => key a = k).getLast?

@[simp] theorem latest_nil (k : κ) : latest key [] k = none := rfl

theorem latest_concat (writes : List α) (a : α) (k : κ) :
    latest key (writes ++ [a]) k = if key a = k then some a else latest key writes k := by
  unfold latest
  rw [List.filter_append]
  split
  · rename_i hk
    simp [hk]
  · rename_i hk
    simp [hk]

theorem latest_cons (a : α) (writes : List α) (k : κ) :
    latest key (a :: writes) k = (latest key writes k).or (if key a = k then some a else none) := by
  unfold latest
  rw [List.filter_cons]
  split
  · rename_i hk
    rw [if_pos (by simpa using hk), List.getLast?_cons]
    cases (writes.filter fun b => key b = k).getLast? <;> rfl
  · rename_i hk
    rw [if_neg (by simpa using hk), Option.or_none]

theorem mem_of_latest {writes : List α} {k : κ} {a : α} (h : latest key writes k = some a) :
    a ∈ writes ∧ key a = k := by
  simpa using List.mem_filter.mp (List.mem_of_getLast? h)

theorem exists_latest (key : α → κ) {writes : List α} {a : α} (h : a ∈ writes) :
    ∃ b, latest key writes (key a) = some b := by
  have hmem : a ∈ writes.filter fun b => key b = key a := List.mem_filter.mpr ⟨h, by simp⟩
  exact ⟨_, List.getLast?_eq_some_getLast (List.ne_nil_of_mem hmem)⟩

theorem latest_eq_none_iff {writes : List α} {k : κ} :
    latest key writes k = none ↔ ∀ a ∈ writes, key a ≠ k := by
  simp [latest]

/-- Two keys that agree on which writes they name agree on the last of them. -/
theorem latest_congr {ι : Type} [DecidableEq ι] {other : α → ι} {writes : List α} {k : κ} {i : ι}
    (h : ∀ a ∈ writes, key a = k ↔ other a = i) : latest key writes k = latest other writes i := by
  unfold latest
  rw [List.filter_congr fun a ha => decide_eq_decide.mpr (h a ha)]

theorem latest_map {β : Type} (f : β → α) (writes : List β) (k : κ) :
    latest key (writes.map f) k = (latest (fun b => key (f b)) writes k).map f := by
  unfold latest
  rw [List.filter_map, List.getLast?_map]
  rfl

/-- The only write under a key, however often it is made, is the last one. -/
theorem latest_eq_of_forall {writes : List α} {k : κ} {a : α} (hmem : a ∈ writes)
    (hkey : key a = k) (honly : ∀ b ∈ writes, key b = k → b = a) : latest key writes k = some a := by
  subst hkey
  obtain ⟨b, hb⟩ := exists_latest key hmem
  obtain ⟨hbmem, hbkey⟩ := mem_of_latest hb
  rw [hb, honly b hbmem hbkey]

/-- A store that is written under one key and saved under another is restored from what was
    saved, in any order and with any repetitions, if the two keys tell the same writes apart. -/
theorem latest_reload {ι : Type} [DecidableEq ι] (slot : α → ι) {writes saved : List α}
    (hagree : ∀ a ∈ writes, ∀ b ∈ writes, slot a = slot b ↔ key a = key b)
    (hlatest : ∀ a ∈ saved, latest slot writes (slot a) = some a)
    (hcovers : ∀ a ∈ writes, ∃ b ∈ saved, slot b = slot a) (k : κ) :
    latest key saved k = latest key writes k := by
  have hsame : ∀ a ∈ writes, latest slot writes (slot a) = latest key writes (key a) :=
    fun a ha => latest_congr fun b hb => hagree b hb a ha
  have hwritten : ∀ a ∈ saved, a ∈ writes := fun a ha => (mem_of_latest (hlatest a ha)).1
  cases hwrites : latest key writes k with
  | none =>
    rw [latest_eq_none_iff] at hwrites ⊢
    exact fun a ha => hwrites a (hwritten a ha)
  | some a =>
    obtain ⟨hmem, rfl⟩ := mem_of_latest hwrites
    -- whatever was saved under the key is the last write under it
    have honly : ∀ b ∈ saved, key b = key a → b = a := by
      intro b hb hkey
      have hlast := hlatest b hb
      rw [hsame b (hwritten b hb), hkey, hwrites] at hlast
      exact (Option.some.inj hlast).symm
    obtain ⟨b, hb, hslot⟩ := hcovers a hmem
    have hkey : key b = key a := (hagree b (hwritten b hb) a hmem).mp hslot
    obtain rfl := honly b hb hkey
    exact latest_eq_of_forall hb rfl honly

/-- What a variable holds after a sequence of writes, of which those under its key set it. -/
theorem field_foldl {σ β : Type} (field : σ → Option β) (set : σ → α → σ) (value : α → β) {k : κ}
    (hset : ∀ s a, field (set s a) = if key a = k then some (value a) else field s)
    (writes : List α) (s : σ) :
    field (writes.foldl set s) = ((latest key writes k).map value).or (field s) := by
  induction writes using List.reverseRecOn with
  | nil => rfl
  | append_singleton writes a ih =>
    rw [List.foldl_append, List.foldl_cons, List.foldl_nil, hset, latest_concat, ih]
    split <;> rfl

/-- What a map holds after a sequence of insertions. -/
theorem get_foldl {σ β : Type} (get : σ → κ → Option β) (insert : σ → α → σ) (value : α → β)
    (hinsert : ∀ s a k, get (insert s a) k = if key a = k then some (value a) else get s k)
    (writes : List α) (s : σ) (k : κ) :
    get (writes.foldl insert s) k = ((latest key writes k).map value).or (get s k) :=
  field_foldl (fun s => get s k) insert value (fun s a => hinsert s a k) writes s

end last_write
