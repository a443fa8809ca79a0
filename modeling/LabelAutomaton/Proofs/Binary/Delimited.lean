import LabelAutomaton.Binary

/-!
# Readers that find the end of what they read

`Takes reader used a` says that `used` is all that `reader` looks at when it returns `a`: what
stands behind it has no influence, and no proper beginning of it is enough. A reader is `Delimited`
if all its successes are of this kind. Both notions pass from the parts of a format to the whole,
by `Takes.bind` and `Delimited.bind`, so a format is delimited as soon as its numbers are.

The second half shows for each kind of value that its bytes are what its reader takes.
-/

set_option autoImplicit false

namespace LabelAutomaton.Binary

variable {α β : Type}

/-- The reader returns `a` for the bytes `used`, whatever follows them, and wants more bytes as
long as it has only a part of them. -/
structure Takes (reader : Reader α) (used : List UInt8) (a : α) : Prop where
  /-- Bytes behind `used` are left alone. -/
  rest : ∀ rest, StateT.run reader (used ++ rest) = .ok (a, rest)
  /-- A proper beginning of `used` is too short. -/
  short : ∀ p, p <+: used → p ≠ used → StateT.run reader p = .error .unexpectedEnd

/-- Whatever the reader returns, it takes some bytes from the front for it. -/
def Delimited (reader : Reader α) : Prop :=
  ∀ bytes a rest, StateT.run reader bytes = .ok (a, rest) →
    ∃ used, bytes = used ++ rest ∧ Takes reader used a

/-! ## Combining readers -/

theorem run_bind_of_ok {reader : Reader α} {next : α → Reader β} {bytes rest : List UInt8} {a : α}
    (h : StateT.run reader bytes = .ok (a, rest)) :
    StateT.run (reader >>= next) bytes = StateT.run (next a) rest := by
  rw [StateT.run_bind, h]
  rfl

theorem run_bind_of_error {reader : Reader α} {next : α → Reader β} {bytes : List UInt8}
    {e : ReadError} (h : StateT.run reader bytes = .error e) :
    StateT.run (reader >>= next) bytes = .error e := by
  rw [StateT.run_bind, h]
  rfl

/-- If one reader succeeds after another, both have succeeded. -/
theorem run_bind_eq_ok {reader : Reader α} {next : α → Reader β} {bytes rest : List UInt8} {b : β}
    (h : StateT.run (reader >>= next) bytes = .ok (b, rest)) :
    ∃ a middle, StateT.run reader bytes = .ok (a, middle) ∧
      StateT.run (next a) middle = .ok (b, rest) := by
  cases hread : StateT.run reader bytes with
  | error e =>
    rw [run_bind_of_error hread] at h
    exact absurd h (by simp)
  | ok p =>
    obtain ⟨a, middle⟩ := p
    exact ⟨a, middle, rfl, by rwa [run_bind_of_ok hread] at h⟩

theorem takes_pure (a : α) : Takes (pure a) [] a := by
  refine ⟨fun rest ↦ rfl, fun p hp hne ↦ ?_⟩
  exact absurd (List.prefix_nil.1 hp) hne

/-- A beginning of two parts is a beginning of the first, or the first with a beginning of the
second. -/
theorem proper_or_append_of_prefix {p u v : List UInt8} (h : p <+: u ++ v) :
    (p <+: u ∧ p ≠ u) ∨ ∃ q, p = u ++ q ∧ q <+: v := by
  rcases List.prefix_or_prefix_of_prefix h (List.prefix_append u v) with hpu | ⟨q, rfl⟩
  · by_cases heq : p = u
    · exact Or.inr ⟨[], by simp [heq], List.nil_prefix⟩
    · exact Or.inl ⟨hpu, heq⟩
  · exact Or.inr ⟨q, rfl, (List.prefix_append_right_inj u).1 h⟩

/-- **Two readers one after the other take what they take one after the other.** -/
theorem Takes.bind {reader : Reader α} {next : α → Reader β} {u v : List UInt8} {a : α} {b : β}
    (h : Takes reader u a) (h' : Takes (next a) v b) : Takes (reader >>= next) (u ++ v) b := by
  refine ⟨fun rest ↦ ?_, fun p hp hne ↦ ?_⟩
  · rw [List.append_assoc, run_bind_of_ok (h.rest _), h'.rest]
  · rcases proper_or_append_of_prefix hp with ⟨hpu, hpne⟩ | ⟨q, rfl, hq⟩
    · exact run_bind_of_error (h.short p hpu hpne)
    · rw [run_bind_of_ok (h.rest q)]
      refine h'.short q hq fun hqv ↦ hne ?_
      rw [hqv]

/-- The second reader may need no bytes at all. -/
theorem Takes.bind_nil {reader : Reader α} {next : α → Reader β} {u : List UInt8} {a : α} {b : β}
    (h : Takes reader u a) (h' : Takes (next a) [] b) : Takes (reader >>= next) u b := by
  have hboth := h.bind h'
  rwa [List.append_nil] at hboth

theorem Takes.bind_pure {reader : Reader α} {u : List UInt8} {a : α} (h : Takes reader u a)
    (f : α → β) : Takes (reader >>= fun a ↦ pure (f a)) u (f a) :=
  h.bind_nil (takes_pure (f a))

theorem delimited_pure (a : α) : Delimited (pure a : Reader α) := by
  intro bytes b rest h
  cases h
  exact ⟨[], rfl, takes_pure a⟩

theorem delimited_throw (e : ReadError) : Delimited (throw e : Reader α) := by
  intro bytes b rest h
  cases h

theorem Delimited.bind {reader : Reader α} {next : α → Reader β} (h : Delimited reader)
    (h' : ∀ a, Delimited (next a)) : Delimited (reader >>= next) := by
  intro bytes b rest hread
  obtain ⟨a, middle, hfirst, hsecond⟩ := run_bind_eq_ok hread
  obtain ⟨u, rfl, hu⟩ := h bytes a middle hfirst
  obtain ⟨v, rfl, hv⟩ := h' a middle b rest hsecond
  exact ⟨u ++ v, (List.append_assoc u v rest).symm, hu.bind hv⟩

theorem map_eq_bind (f : α → β) (reader : Reader α) :
    f <$> reader = reader >>= fun a ↦ pure (f a) := by
  funext bytes
  show StateT.run (f <$> reader) bytes = StateT.run (reader >>= fun a ↦ pure (f a)) bytes
  rw [StateT.run_map, StateT.run_bind]
  cases StateT.run reader bytes <;> rfl

/-! ## The readers of the format -/

/-- A fixed number of bytes is what there is, or there is too little. -/
theorem takes_readBytes (bytes : List UInt8) : Takes (readBytes bytes.length) bytes bytes := by
  refine ⟨fun rest ↦ ?_, fun p hp hne ↦ ?_⟩
  · show readBytes bytes.length (bytes ++ rest) = _
    rw [readBytes, if_pos (by simp), List.take_left, List.drop_left]
  · show readBytes bytes.length p = _
    rw [readBytes, if_neg]
    intro hle
    exact hne (hp.eq_of_length (Nat.le_antisymm hp.length_le hle))

theorem delimited_readBytes (n : Nat) : Delimited (readBytes n) := by
  intro bytes a rest h
  change readBytes n bytes = .ok (a, rest) at h
  rw [readBytes] at h
  split at h
  · rename_i hle
    cases h
    refine ⟨bytes.take n, (List.take_append_drop n bytes).symm, ?_⟩
    have htakes := takes_readBytes (bytes.take n)
    rwa [List.length_take_of_le hle] at htakes
  · cases h

theorem delimited_readNumber (width : Nat) : Delimited (readNumber width) :=
  (delimited_readBytes width).bind fun _ ↦ delimited_pure _

theorem delimited_readWord32 : Delimited readWord32 :=
  (delimited_readNumber 4).bind fun _ ↦ delimited_pure _

theorem delimited_readWord64 : Delimited readWord64 :=
  (delimited_readNumber 8).bind fun _ ↦ delimited_pure _

theorem delimited_readString : Delimited readString := by
  refine (delimited_readNumber 8).bind fun size ↦ (delimited_readBytes size).bind fun bytes ↦ ?_
  split
  · exact delimited_pure _
  · exact delimited_throw _

theorem delimited_readOption {reader : Reader α} (h : Delimited reader) :
    Delimited (readOption reader) := by
  refine (delimited_readNumber 1).bind fun tag ↦ ?_
  split
  · exact delimited_pure _
  · rw [map_eq_bind]
    exact h.bind fun _ ↦ delimited_pure _
  · exact delimited_throw _

theorem delimited_readMany {reader : Reader α} (h : Delimited reader) (n : Nat) :
    Delimited (readMany reader n) := by
  induction n with
  | zero => exact delimited_pure _
  | succ n ih => exact h.bind fun a ↦ ih.bind fun rest ↦ delimited_pure _

theorem delimited_readList {reader : Reader α} (h : Delimited reader) :
    Delimited (readList reader) :=
  (delimited_readNumber 8).bind (delimited_readMany h)

/-! ## What is written is taken -/

theorem takes_readNumber {width n : Nat} (h : n < Nat.pow 256 width) :
    Takes (readNumber width) (littleEndian width n) n := by
  have hbytes := takes_readBytes (littleEndian width n)
  have hvalue : ofLittleEndian (littleEndian width n) = n := by
    rw [ofLittleEndian_littleEndian, Nat.mod_eq_of_lt h]
  rw [length_littleEndian] at hbytes
  have hnumber : Takes (readNumber width) _ _ := hbytes.bind_pure ofLittleEndian
  rwa [hvalue] at hnumber

theorem takes_readWord32 (n : UInt32) : Takes readWord32 (ofWord32 n) n := by
  have h : Takes readWord32 _ _ :=
    (takes_readNumber n.toNat_lt).bind_pure UInt32.ofNat
  rwa [UInt32.ofNat_toNat] at h

theorem takes_readWord64 (n : UInt64) : Takes readWord64 (ofWord64 n) n := by
  have h : Takes readWord64 _ _ :=
    (takes_readNumber n.toNat_lt).bind_pure UInt64.ofNat
  rwa [UInt64.ofNat_toNat] at h

/-- The length of the text in bytes is a number of 64 bits. Every text in memory is that short. -/
def Fits (text : String) : Prop := text.utf8ByteSize < UInt64.size

instance (text : String) : Decidable (Fits text) :=
  inferInstanceAs (Decidable (text.utf8ByteSize < UInt64.size))

theorem fromUTF8?_toUTF8 (text : String) :
    String.fromUTF8? ⟨text.toUTF8.data.toList.toArray⟩ = some text := by
  have hbytes : (⟨text.toUTF8.data.toList.toArray⟩ : ByteArray) = text.toByteArray := by
    rw [Array.toArray_toList]
    rfl
  rw [hbytes, String.fromUTF8?, dif_pos text.isValidUTF8]
  rfl

theorem takes_readString {text : String} (h : Fits text) :
    Takes readString (ofString text) text := by
  have hsize : text.toUTF8.data.toList.length < Nat.pow 256 8 := h
  refine (takes_readNumber hsize).bind ?_
  refine (takes_readBytes text.toUTF8.data.toList).bind_nil ?_
  simp only [fromUTF8?_toUTF8]
  exact takes_pure text

theorem takes_readOption {reader : Reader α} {write : α → List UInt8} {a? : Option α}
    (h : ∀ a ∈ a?, Takes reader (write a) a) :
    Takes (readOption reader) (ofOption write a?) a? := by
  cases a? with
  | none => exact (takes_readNumber (by decide)).bind (takes_pure none)
  | some a =>
    have hsome : Takes (some <$> reader) (write a) (some a) := by
      rw [map_eq_bind]
      exact (h a rfl).bind_pure some
    exact (takes_readNumber (by decide)).bind hsome

theorem takes_readMany {reader : Reader α} {write : α → List UInt8} {l : List α}
    (h : ∀ a ∈ l, Takes reader (write a) a) :
    Takes (readMany reader l.length) (l.flatMap write) l := by
  induction l with
  | nil => exact takes_pure []
  | cons a rest ih =>
    have hrest := ih fun b hb ↦ h b (List.mem_cons_of_mem a hb)
    rw [List.flatMap_cons]
    exact (h a List.mem_cons_self).bind (hrest.bind_pure (a :: ·))

theorem takes_readList {reader : Reader α} {write : α → List UInt8} {l : List α}
    (hlength : l.length < UInt64.size) (h : ∀ a ∈ l, Takes reader (write a) a) :
    Takes (readList reader) (ofList write l) l :=
  (takes_readNumber hlength).bind (takes_readMany h)

end LabelAutomaton.Binary
