import LabelAutomaton.Proofs.Json.Members

/-!
# What the readers accept

For each reader of scalars and lists one lemma says from which values it reads what
(`reads_string` and so on, `reads_list`). None of them reads a value with a gap, so a document is
read just if its text spells a value that is read (`Document.read_eq_ok_iff`). If that value ends
with a bracket, as records do, then nothing but white space may stand behind it
(`Document.read_append`).
-/

set_option autoImplicit false

namespace LabelAutomaton.Json

variable {α : Type}

/-! ## Scalars and lists -/

/-- The value is the natural number, written without a point or an exponent. -/
def Value.IsNat (v : Value) (n : Nat) : Prop :=
  ∃ digits, v = .number ⟨false, digits, [], none⟩ ∧ Nat.ofDigitChars 10 digits 0 = n

theorem Value.isNat_ofNat (n : Nat) : (ofNat n).IsNat n :=
  ⟨Nat.toDigits 10 n, rfl, Nat.ofDigitChars_ten_toDigits⟩

/-- The value is an array whose items stand for those of the list, each in its place. -/
def Value.Lists (P : Value → α → Prop) (v : Value) (as : List α) : Prop :=
  ∃ items, v = .ofList items ∧ List.Forall₂ P items as

/-- The values are arrays whose items are related, each in its place. -/
def Value.BothList (R : Value → Value → Prop) (v w : Value) : Prop :=
  ∃ vs ws, v = .ofList vs ∧ w = .ofList ws ∧ List.Forall₂ R vs ws

theorem reads_string : readString.Reads fun v text ↦ v = .ofString text := by
  intro v text
  constructor
  · intro h
    cases v with
    | string t =>
      cases t with
      | none => cases h
      | some t => exact congrArg Value.ofString (Except.ok.inj h)
    | _ => cases h
  · rintro rfl
    rfl

theorem reads_bool : readBool.Reads fun v b ↦ v = .bool b := by
  intro v b
  constructor
  · intro h
    cases v with
    | bool b' => exact congrArg Value.bool (Except.ok.inj h)
    | _ => cases h
  · rintro rfl
    rfl

/-- The numerals of the integers that are no less than 0. -/
theorem Numeral.integer?_eq_ofNat_iff {n : Numeral} {k : Nat} :
    n.integer? = some (Int.ofNat k) ↔ (Value.number n).IsNat k ∧ k < UInt64.size := by
  have hvalue : (Value.number n).IsNat k ↔
      (n.fraction = [] ∧ n.exponent = none) ∧ n.negative = false ∧ n.magnitude = k := by
    obtain ⟨negative, whole, fraction, exponent⟩ := n
    constructor
    · rintro ⟨digits, heq, hdigits⟩
      cases heq
      exact ⟨⟨rfl, rfl⟩, rfl, hdigits⟩
    · rintro ⟨⟨rfl, rfl⟩, rfl, hdigits⟩
      exact ⟨whole, rfl, hdigits⟩
  rw [hvalue, integer?]
  by_cases hwhole : n.fraction = [] ∧ n.exponent = none
  · rw [if_neg (by simp [hwhole])]
    cases hnegative : n.negative with
    | true =>
      refine iff_of_false ?_ (by simp)
      rw [if_pos rfl]
      split
      · simp only [Option.some.injEq, Int.ofNat_eq_natCast]
        omega
      · simp
    | false =>
      rw [if_neg (by simp)]
      split
      · simp only [Option.some.injEq, Int.ofNat_eq_natCast, hwhole, true_and]
        omega
      · simp only [hwhole, true_and, reduceCtorEq, false_iff]
        omega
  · rw [if_pos]
    · simp [hwhole]
    · rw [← Option.ne_none_iff_isSome, ← not_and_or]
      exact hwhole

theorem reads_nat {bound : Nat} (hbound : bound ≤ UInt64.size) :
    (readNat bound).Reads fun v n ↦ v.IsNat n ∧ n < bound := by
  intro v n
  cases v with
  | number m =>
    have hvalue : (Value.number m).IsNat n ∧ n < bound ↔
        m.integer? = some (Int.ofNat n) ∧ n < bound := by
      rw [Numeral.integer?_eq_ofNat_iff, and_assoc, and_congr_right_iff]
      exact fun _ ↦ ⟨fun hlt ↦ ⟨Nat.lt_of_lt_of_le hlt hbound, hlt⟩, And.right⟩
    refine Iff.trans ?_ hvalue.symm
    rw [readNat]
    rcases m.integer? with _ | k | k
    · simp
    · by_cases hlt : k < bound
      · simp only [if_pos hlt, Except.ok.injEq, Option.some.injEq, Int.ofNat.injEq]
        exact ⟨fun h ↦ ⟨h, h ▸ hlt⟩, And.left⟩
      · simp only [if_neg hlt, reduceCtorEq, Option.some.injEq, Int.ofNat.injEq, false_iff]
        exact fun h ↦ hlt (h.1 ▸ h.2)
    · simp
  | _ =>
    refine iff_of_false (fun h ↦ by cases h) ?_
    rintro ⟨⟨digits, h, -⟩, -⟩
    cases h

theorem reads_word32 : readWord32.Reads fun v n ↦ v.IsNat n.toNat := by
  intro v n
  rw [readWord32, map_eq_ok_iff]
  constructor
  · rintro ⟨k, hk, rfl⟩
    obtain ⟨hv, hlt⟩ := (reads_nat (by decide) v k).1 hk
    rwa [UInt32.toNat_ofNat', Nat.mod_eq_of_lt hlt]
  · intro h
    exact ⟨n.toNat, (reads_nat (by decide) v _).2 ⟨h, n.toNat_lt⟩, UInt32.ofNat_toNat⟩

theorem reads_word64 : readWord64.Reads fun v n ↦ v.IsNat n.toNat := by
  intro v n
  rw [readWord64, map_eq_ok_iff]
  constructor
  · rintro ⟨k, hk, rfl⟩
    obtain ⟨hv, hlt⟩ := (reads_nat (Nat.le_refl _) v k).1 hk
    rwa [UInt64.toNat_ofNat', Nat.mod_eq_of_lt hlt]
  · intro h
    exact ⟨n.toNat, (reads_nat (Nat.le_refl _) v _).2 ⟨h, n.toNat_lt⟩, UInt64.ofNat_toNat⟩

theorem reads_nullable {reader : Reader α} {P : Value → α → Prop} (h : reader.Reads P)
    (hnull : ∀ a, ¬P .null a) :
    (readNullable reader).Reads fun v a? ↦
      v = .null ∧ a? = none ∨ ∃ a, P v a ∧ some a = a? := by
  intro v a?
  simp only [← h v]
  cases v with
  | null =>
    have herror : ∀ a, reader .null ≠ .ok a := fun a ha ↦ hnull a ((h .null a).1 ha)
    simp [readNullable, herror, eq_comm]
  | _ => simp [readNullable, map_eq_ok_iff]

theorem readItems_eq_ok_iff {reader : Reader α} {P : Value → α → Prop} (h : reader.Reads P)
    {items : List Value} {as : List α} :
    readItems reader items = .ok as ↔ List.Forall₂ P items as := by
  induction items generalizing as with
  | nil => simp [readItems, eq_comm]
  | cons v items ih =>
    rw [readItems, bind_eq_ok_iff, List.forall₂_cons_left_iff]
    simp only [bind_eq_ok_iff, ih, h v _]
    constructor
    · rintro ⟨a, ha, rest, hrest, h⟩
      exact ⟨a, rest, ha, hrest, (Except.ok.inj h).symm⟩
    · rintro ⟨a, rest, ha, hrest, rfl⟩
      exact ⟨a, ha, rest, hrest, rfl⟩

/-- **A list is read just if each item is**, in its place. -/
theorem reads_list {reader : Reader α} {P : Value → α → Prop} (h : reader.Reads P) :
    (readList reader).Reads (Value.Lists P) := by
  intro v as
  constructor
  · intro hread
    cases v with
    | array items closed =>
      rw [readList] at hread
      obtain ⟨as', has, hclosed⟩ := bind_eq_ok_iff.1 hread
      cases closed with
      | false => cases hclosed
      | true =>
        cases hclosed
        exact ⟨items, rfl, (readItems_eq_ok_iff h).1 has⟩
    | _ => cases hread
  · rintro ⟨items, rfl, has⟩
    rw [Value.ofList, readList, (readItems_eq_ok_iff h).2 has]
    rfl

/-- Arrays with related items list the same, if related values stand for the same. -/
theorem Value.BothList.lists {R : Value → Value → Prop} {P : Value → α → Prop} {v w : Value}
    {as : List α} (h : BothList R v w) (hrel : ∀ v w a, R v w → P v a → P w a)
    (hv : v.Lists P as) : w.Lists P as := by
  obtain ⟨vs, ws, rfl, rfl, hitems⟩ := h
  obtain ⟨vs', heq, has⟩ := hv
  cases heq
  refine ⟨ws, rfl, ?_⟩
  induction hitems generalizing as with
  | nil => exact has
  | cons hvw _ ih =>
    obtain ⟨a, rest, ha, hrest, rfl⟩ := List.forall₂_cons_left_iff.1 has
    exact .cons (hrel _ _ _ hvw ha) (ih hrest)

theorem Value.BothList.symm {R : Value → Value → Prop} {v w : Value} (h : BothList R v w)
    (hsymm : ∀ v w, R v w → R w v) : BothList R w v := by
  obtain ⟨vs, ws, hv, hw, hitems⟩ := h
  exact ⟨ws, vs, hw, hv, (hitems.imp hsymm).flip⟩

/-! ## Values without a gap -/

theorem isWhole_string : readString.IsWhole := by
  intro v text h
  rw [(reads_string v text).1 h]
  rfl

theorem isWhole_bool : readBool.IsWhole := by
  intro v b h
  rw [(reads_bool v b).1 h]
  rfl

theorem isWhole_nat (bound : Nat) : (readNat bound).IsWhole := by
  intro v n h
  cases v with
  | number => rfl
  | _ => cases h

theorem Reader.IsWhole.map {β : Type} {reader : Reader α} (h : reader.IsWhole) (f : α → β) :
    Reader.IsWhole fun v ↦ f <$> reader v := by
  intro v b hread
  obtain ⟨a, ha, -⟩ := map_eq_ok_iff.1 hread
  exact h v a ha

theorem isWhole_nullable {reader : Reader α} (h : reader.IsWhole) :
    (readNullable reader).IsWhole := by
  intro v a? hread
  cases v with
  | null => rfl
  | _ => exact h.map some _ _ hread

theorem isWhole_list {reader : Reader α} (h : reader.IsWhole) : (readList reader).IsWhole := by
  intro v as hread
  obtain ⟨items, rfl, hitems⟩ := (reads_list (fun _ _ ↦ Iff.rfl) v as).1 hread
  have hboth := hitems.imp fun v a ha ↦ And.intro (h v a ha) ha
  exact Value.isComplete_array_iff.2 ⟨rfl, ((List.forall₂_and_left _ _).1 hboth).1⟩

/-! ## Documents -/

namespace Document

/-- A text spells no more than one value. -/
theorem spelling_unique {text : String} {v w : Value} (hv : v.Spelling text)
    (hw : w.Spelling text) : v = w := by
  have hdocument := (ofText_eq_iff hv.1).2 hv
  rw [(ofText_eq_iff hw.1).2 hw] at hdocument
  cases hdocument
  rfl

/-- What is read of a text that goes on behind a bracket. -/
theorem read_append {reader : Reader α} {text more : String} {v : Value} (h : v.Spelling text)
    (hbracket : v.isBracketed = true) :
    read reader (text ++ more) = reader v >>= fun a ↦
      if more.toList.all Token.isSpace then .ok a else .error .malformedJson := by
  have hmore : (Token.ofChars more.toList).isEmpty = more.toList.all Token.isSpace := by
    rw [Bool.eq_iff_iff, List.isEmpty_iff, Token.ofChars_eq_nil_iff, List.all_eq_true]
  rw [read, ofText_append h hbracket, ← hmore]
  rfl

/-- **A document is read just if it spells a value that is read.** -/
theorem read_eq_ok_iff {reader : Reader α} (h : reader.IsWhole) {text : String} {a : α} :
    read reader text = .ok a ↔ ∃ v : Value, v.Spelling text ∧ reader v = .ok a := by
  constructor
  · intro hread
    rcases hdocument : ofText text with ⟨v, trailing⟩
    rw [read, hdocument] at hread
    obtain ⟨b, hb, htrailing⟩ := bind_eq_ok_iff.1 hread
    cases trailing with
    | nil =>
      cases htrailing
      exact ⟨v, (ofText_eq_iff (h v _ hb)).1 hdocument, hb⟩
    | cons t rest => cases htrailing
  · rintro ⟨v, hspelling, hv⟩
    rw [read_of_spelling reader hspelling, hv]

/-- **Behind a document that is read there is room for white space only**, if what is read are
records. -/
theorem read_append_of_ok {reader : Reader α} (h : reader.IsWhole)
    (hbracket : ∀ v a, reader v = .ok a → v.isBracketed = true) {text : String} {a : α}
    (hread : read reader text = .ok a) (more : String) :
    read reader (text ++ more) =
      if more.toList.all Token.isSpace then .ok a else .error .malformedJson := by
  obtain ⟨v, hspelling, hv⟩ := (read_eq_ok_iff h).1 hread
  rw [read_append hspelling (hbracket v a hv), hv, ok_bind]

end Document

end LabelAutomaton.Json
