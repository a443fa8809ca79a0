/-!
# Maps with string keys in increasing order

`SortedMap α` is a finite map from strings to `α`, held as a list of entries whose keys strictly
increase in code point order. The list is the canonical view: two maps with the same lookups are
equal (`SortedMap.ext_find?`), so everything printed from the entries depends on the map alone and
not on the order in which it was filled.

The one writing operation is `alter`, and `find?_alter` says all about it.
-/

set_option autoImplicit false

namespace LabelAutomaton

/-- A finite map from strings to `α`, its entries in increasing order of their keys. -/
structure SortedMap (α : Type) where
  /-- The entries, smallest key first. -/
  entries : List (String × α)
  /-- The keys strictly increase. -/
  sorted : entries.Pairwise fun a b ↦ a.1 < b.1

namespace SortedMap

variable {α β : Type}

/-! ## Entry lists -/

/-- The value of the first entry with this key. -/
def lookup (key : String) : List (String × α) → Option α
  | [] => none
  | (k, v) :: rest => if key = k then some v else lookup key rest

/-- Replace the value at `key` in an increasing list, or put a new entry in its place. -/
def place (key : String) (f : Option α → α) : List (String × α) → List (String × α)
  | [] => [(key, f none)]
  | (k, v) :: rest =>
    if key < k then (key, f none) :: (k, v) :: rest
    else if key = k then (key, f (some v)) :: rest
    else (k, v) :: place key f rest

theorem fst_mem_place {key : String} {f : Option α → α} {l : List (String × α)}
    {e : String × α} (h : e ∈ place key f l) : e.1 = key ∨ e ∈ l := by
  induction l with
  | nil => simp_all [place]
  | cons p rest ih =>
    obtain ⟨k, v⟩ := p
    rw [place] at h
    split at h
    · rcases List.mem_cons.1 h with h | h
      · exact Or.inl (by rw [h])
      · exact Or.inr h
    · split at h
      · rcases List.mem_cons.1 h with h | h
        · exact Or.inl (by rw [h])
        · exact Or.inr (List.mem_cons_of_mem _ h)
      · rcases List.mem_cons.1 h with h | h
        · exact Or.inr (by rw [h]; exact List.mem_cons_self)
        · exact (ih h).imp_right (List.mem_cons_of_mem _)

theorem lt_of_not_lt_of_ne {a b : String} (h : ¬a < b) (hne : a ≠ b) : b < a := by
  rcases Std.lt_trichotomy a b with h' | h' | h'
  · exact absurd h' h
  · exact absurd h' hne
  · exact h'

theorem pairwise_place (key : String) (f : Option α → α) {l : List (String × α)}
    (h : l.Pairwise fun a b ↦ a.1 < b.1) : (place key f l).Pairwise fun a b ↦ a.1 < b.1 := by
  induction l with
  | nil => simp [place]
  | cons p rest ih =>
    obtain ⟨k, v⟩ := p
    have hrest := List.pairwise_cons.1 h
    rw [place]
    split
    · rename_i hlt
      refine List.pairwise_cons.2 ⟨fun e he ↦ ?_, h⟩
      rcases List.mem_cons.1 he with rfl | he
      · exact hlt
      · exact String.lt_trans hlt (hrest.1 e he)
    · split
      · rename_i heq
        subst heq
        exact List.pairwise_cons.2 ⟨hrest.1, hrest.2⟩
      · rename_i hlt hne
        refine List.pairwise_cons.2 ⟨fun e he ↦ ?_, ih hrest.2⟩
        rcases fst_mem_place he with h' | h'
        · exact h' ▸ lt_of_not_lt_of_ne hlt hne
        · exact hrest.1 e h'

theorem lookup_eq_none_of_lt {key : String} {l : List (String × α)}
    (h : ∀ e ∈ l, key < e.1) : lookup key l = none := by
  induction l with
  | nil => rfl
  | cons p rest ih =>
    have hne : key ≠ p.1 := fun heq ↦ String.lt_irrefl p.1 (heq ▸ h p List.mem_cons_self)
    rw [lookup, if_neg hne]
    exact ih fun e he ↦ h e (List.mem_cons_of_mem _ he)

theorem lookup_place_self (key : String) (f : Option α → α) {l : List (String × α)}
    (h : l.Pairwise fun a b ↦ a.1 < b.1) :
    lookup key (place key f l) = some (f (lookup key l)) := by
  induction l with
  | nil => simp [place, lookup]
  | cons p rest ih =>
    obtain ⟨k, v⟩ := p
    have hrest := List.pairwise_cons.1 h
    rw [place]
    split
    · rename_i hlt
      have hnone : lookup key ((k, v) :: rest) = none := by
        refine lookup_eq_none_of_lt fun e he ↦ ?_
        rcases List.mem_cons.1 he with rfl | he
        · exact hlt
        · exact String.lt_trans hlt (hrest.1 e he)
      rw [hnone]
      simp [lookup]
    · split
      · rename_i heq
        subst heq
        simp [lookup]
      · rename_i hlt hne
        rw [lookup, if_neg hne, ih hrest.2, lookup, if_neg hne]

theorem lookup_place_of_ne {key other : String} (hne : other ≠ key) (f : Option α → α)
    (l : List (String × α)) : lookup other (place key f l) = lookup other l := by
  induction l with
  | nil => simp [place, lookup, hne]
  | cons p rest ih =>
    obtain ⟨k, v⟩ := p
    rw [place]
    split
    · rw [lookup, if_neg hne]
    · split
      · rename_i heq
        subst heq
        rw [lookup, if_neg hne, lookup, if_neg hne]
      · rw [lookup, ih, ← lookup]

theorem lookup_map (f : α → β) (key : String) (l : List (String × α)) :
    lookup key (l.map fun e ↦ (e.1, f e.2)) = (lookup key l).map f := by
  induction l with
  | nil => rfl
  | cons p rest ih =>
    rw [List.map_cons, lookup, lookup, ih]
    split <;> rfl

theorem lookup_eq_some_iff {key : String} {v : α} {l : List (String × α)}
    (h : l.Pairwise fun a b ↦ a.1 < b.1) : lookup key l = some v ↔ (key, v) ∈ l := by
  induction l with
  | nil => simp [lookup]
  | cons p rest ih =>
    obtain ⟨k, w⟩ := p
    have hrest := List.pairwise_cons.1 h
    rw [lookup]
    split
    · rename_i heq
      subst heq
      constructor
      · rintro ⟨rfl⟩
        exact List.mem_cons_self
      · intro hmem
        rcases List.mem_cons.1 hmem with h' | h'
        · rw [Prod.mk.injEq] at h'
          rw [h'.2]
        · exact absurd (hrest.1 _ h') (String.lt_irrefl key)
    · rename_i hne
      rw [ih hrest.2, List.mem_cons]
      exact ⟨Or.inr, fun h' ↦ h'.resolve_left fun h'' ↦ hne (Prod.mk.inj h'').1⟩

/-! ## The map operations -/

/-- The map without entries. -/
def empty : SortedMap α := ⟨[], List.Pairwise.nil⟩

instance : Inhabited (SortedMap α) := ⟨empty⟩

/-- The value at `key`. -/
def find? (m : SortedMap α) (key : String) : Option α := lookup key m.entries

/-- Whether `key` has a value. -/
def contains (m : SortedMap α) (key : String) : Bool := (m.find? key).isSome

/-- The number of entries. -/
def size (m : SortedMap α) : Nat := m.entries.length

/-- The keys in increasing order. -/
def keys (m : SortedMap α) : List String := m.entries.map (·.1)

/-- Give `key` the value that `f` makes of its present one. -/
def alter (m : SortedMap α) (key : String) (f : Option α → α) : SortedMap α :=
  ⟨place key f m.entries, pairwise_place key f m.sorted⟩

/-- Give `key` the value `v`, whatever it had before. -/
def insert (m : SortedMap α) (key : String) (v : α) : SortedMap α := m.alter key fun _ ↦ v

/-- Take away the value at `key`. -/
def erase (m : SortedMap α) (key : String) : SortedMap α :=
  ⟨m.entries.filter (·.1 != key), m.sorted.sublist List.filter_sublist⟩

/-- The map of a list of entries in any order; of two entries with one key the later counts. -/
def ofList (l : List (String × α)) : SortedMap α :=
  l.foldl (fun m e ↦ m.insert e.1 e.2) empty

@[simp] theorem find?_empty (key : String) : (empty : SortedMap α).find? key = none := rfl

theorem find?_alter (m : SortedMap α) (key other : String) (f : Option α → α) :
    (m.alter key f).find? other =
      if other = key then some (f (m.find? key)) else m.find? other := by
  split
  · rename_i heq
    subst heq
    exact lookup_place_self other f m.sorted
  · rename_i hne
    exact lookup_place_of_ne hne f m.entries

theorem find?_insert (m : SortedMap α) (key other : String) (v : α) :
    (m.insert key v).find? other = if other = key then some v else m.find? other :=
  find?_alter m key other fun _ ↦ v

theorem contains_alter (m : SortedMap α) (key other : String) (f : Option α → α) :
    (m.alter key f).contains other = (decide (other = key) || m.contains other) := by
  rw [contains, find?_alter]
  split <;> simp_all [contains]

/-- The keys of a map are those of the entries from which it was made. -/
theorem contains_ofList_iff {l : List (String × α)} {key : String} :
    (ofList l).contains key = true ↔ key ∈ l.map (·.1) := by
  have hfold (m : SortedMap α) :
      (l.foldl (fun m e ↦ m.insert e.1 e.2) m).contains key = true ↔
        key ∈ l.map (·.1) ∨ m.contains key = true := by
    induction l generalizing m with
    | nil => simp
    | cons e rest ih =>
      rw [List.foldl_cons, ih, insert, contains_alter, List.map_cons, List.mem_cons]
      simp only [Bool.or_eq_true, decide_eq_true_eq, or_assoc, or_left_comm]
  rw [ofList, hfold]
  simp [contains]

theorem mem_entries_iff {m : SortedMap α} {key : String} {v : α} :
    (key, v) ∈ m.entries ↔ m.find? key = some v :=
  (lookup_eq_some_iff m.sorted).symm

theorem pairwise_keys (m : SortedMap α) : m.keys.Pairwise (· < ·) :=
  List.pairwise_map.2 m.sorted

theorem mem_keys_iff {m : SortedMap α} {key : String} :
    key ∈ m.keys ↔ ∃ v, m.find? key = some v := by
  simp only [keys, List.mem_map, Prod.exists, exists_and_right, exists_eq_right, mem_entries_iff]

theorem ext_entries {m n : SortedMap α} (h : m.entries = n.entries) : m = n := by
  cases m
  cases n
  cases h
  rfl

/-- Two increasing lists with the same members are equal. -/
theorem eq_of_mem_iff {l₁ l₂ : List (String × α)}
    (h₁ : l₁.Pairwise fun a b ↦ a.1 < b.1) (h₂ : l₂.Pairwise fun a b ↦ a.1 < b.1)
    (h : ∀ e, e ∈ l₁ ↔ e ∈ l₂) : l₁ = l₂ := by
  induction l₁ generalizing l₂ with
  | nil =>
    cases l₂ with
    | nil => rfl
    | cons q rest => exact absurd ((h q).2 List.mem_cons_self) (by simp)
  | cons p rest ih =>
    cases l₂ with
    | nil => exact absurd ((h p).1 List.mem_cons_self) (by simp)
    | cons q rest' =>
      have hp := List.pairwise_cons.1 h₁
      have hq := List.pairwise_cons.1 h₂
      have hpq : p = q := by
        rcases List.mem_cons.1 ((h p).1 List.mem_cons_self) with h' | h'
        · exact h'
        · rcases List.mem_cons.1 ((h q).2 List.mem_cons_self) with h'' | h''
          · exact h''.symm
          · exact absurd (hq.1 p h') (String.lt_asymm (hp.1 q h''))
      subst hpq
      have hirr : ∀ {l : List (String × α)}, (∀ e ∈ l, p.1 < e.1) → ∀ e ∈ l, e ≠ p :=
        fun hl e he heq ↦ String.lt_irrefl p.1 (by have := hl e he; rwa [heq] at this)
      refine congrArg _ (ih hp.2 hq.2 fun e ↦ ⟨fun he ↦ ?_, fun he ↦ ?_⟩)
      · exact (List.mem_cons.1 ((h e).1 (List.mem_cons_of_mem _ he))).resolve_left
          (hirr hp.1 e he)
      · exact (List.mem_cons.1 ((h e).2 (List.mem_cons_of_mem _ he))).resolve_left
          (hirr hq.1 e he)

/-- A map is determined by its lookups. -/
theorem ext_find? {m n : SortedMap α} (h : ∀ key, m.find? key = n.find? key) : m = n :=
  ext_entries <| eq_of_mem_iff m.sorted n.sorted fun (key, v) ↦ by
    rw [mem_entries_iff, mem_entries_iff, h key]

/-- To give a key the value that it has changes nothing. -/
theorem insert_eq_self {m : SortedMap α} {key : String} {v : α} (h : m.find? key = some v) :
    m.insert key v = m := by
  refine ext_find? fun other ↦ ?_
  rw [find?_insert]
  split
  · rename_i heq
    rw [heq, h]
  · rfl

end SortedMap

end LabelAutomaton
