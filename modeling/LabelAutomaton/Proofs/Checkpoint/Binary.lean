import LabelAutomaton.Checkpoint.Binary
import LabelAutomaton.Proofs.Binary.Delimited
import LabelAutomaton.Proofs.Calendar.Timestamp

/-!
# Checkpoints as bytes: reading finds the end

The reader of checkpoints is put together from delimited readers, so it is delimited
(`Checkpoint.delimited_readBytes`), and what is written is what it takes
(`Checkpoint.takes_readBytes`). From these two follows what is known about `Checkpoint.ofBytes`:
a checkpoint is read back from its bytes whatever follows them, and bytes that hold a checkpoint
have a place up to which all is needed and behind which nothing matters
(`Checkpoint.ofBytes_selfDelimiting`).

The lengths of strings and lists are written in 64 bits. `Checkpoint.Fits` says that this is
enough, as it is for every checkpoint that a memory can hold.
-/

set_option autoImplicit false

namespace LabelAutomaton

open Binary

/-! ## What fits -/

/-- The lengths of the step's strings are numbers of 64 bits. -/
def Step.Fits (s : Step) : Prop :=
  Binary.Fits s.source ∧ Binary.Fits s.label ∧ Binary.Fits s.target

instance (s : Step) : Decidable s.Fits :=
  inferInstanceAs (Decidable (Binary.Fits s.source ∧ Binary.Fits s.label ∧ Binary.Fits s.target))

/-- The number of steps and the lengths of their strings are numbers of 64 bits. -/
def History.Fits (h : History) : Prop :=
  h.steps.length < UInt64.size ∧ ∀ s ∈ h.steps, s.Fits

instance (h : History) : Decidable h.Fits :=
  inferInstanceAs (Decidable (h.steps.length < UInt64.size ∧ ∀ s ∈ h.steps, s.Fits))

/-- All lengths in the checkpoint are numbers of 64 bits. -/
def Checkpoint.Fits (c : Checkpoint) : Prop :=
  Binary.Fits c.id ∧ Binary.Fits c.initial ∧ Binary.Fits c.current ∧ c.history.Fits

instance (c : Checkpoint) : Decidable c.Fits :=
  inferInstanceAs (Decidable
    (Binary.Fits c.id ∧ Binary.Fits c.initial ∧ Binary.Fits c.current ∧ c.history.Fits))

/-! ## Instants

The text of an instant is short, so it needs no assumption. -/

theorem Binary.fits_ofList {cs : List Char} (h : 4 * cs.length < UInt64.size) :
    Binary.Fits (String.ofList cs) := by
  have hle : (cs.flatMap String.utf8EncodeChar).length ≤ 4 * cs.length := by
    induction cs with
    | nil => simp
    | cons c cs ih =>
      rw [List.flatMap_cons, List.length_append, String.length_utf8EncodeChar, List.length_cons]
      rw [List.length_cons] at h
      have := ih (by omega)
      have := c.utf8Size_le_four
      omega
  have hsize : (String.ofList cs).utf8ByteSize = (cs.flatMap String.utf8EncodeChar).length := by
    simp [String.utf8ByteSize, List.utf8Encode]
  rw [Binary.Fits, hsize]
  omega

namespace Instant

/-- A rough bound, which is all that is needed. -/
theorem length_padded_le (width n : Nat) : (padded width n).length ≤ width + n + 1 := by
  have hdigits : (Nat.toDigits 10 n).length ≤ n + 1 :=
    (Nat.length_toDigits_le_iff (by decide) (Nat.succ_pos n)).2
      (Nat.lt_trans (Nat.lt_succ_self n) (Nat.lt_pow_self (by decide)))
  rw [padded, List.length_leftpad]
  omega

theorem length_fractionText_le (nano : Nat) : (fractionText nano).length ≤ nano + 11 := by
  have h3 := length_padded_le 3 (nano / 1000000)
  have h6 := length_padded_le 6 (nano / 1000)
  have h9 := length_padded_le 9 nano
  rw [fractionText]
  repeat' split
  · simp
  all_goals
    rw [List.length_cons]
    omega

theorem length_yearText_le (year : Int) : (yearText year).length ≤ year.natAbs + 6 := by
  have h4 := length_padded_le 4 year.natAbs
  rw [yearText]
  split
  · omega
  · rw [List.length_cons]
    omega

theorem fits_toText (t : Instant) : Binary.Fits t.toText := by
  have hyear := length_yearText_le t.date.year
  have hmonth := length_padded_le 2 t.date.month
  have hday := length_padded_le 2 t.date.day
  have hhour := length_padded_le 2 t.hour
  have hminute := length_padded_le 2 t.minute
  have hsecond := length_padded_le 2 t.second
  have hfraction := length_fractionText_le t.nano
  have hdate := t.date.year_range
  have hmonths := t.date.month_range
  have hdays := day_lt_hundred t.date
  have hhours := t.hour_range
  have hminutes := t.minute_range
  have hseconds := t.second_range
  have hnanos := t.nano_range
  have h100 : Nat.pow 10 2 = 100 := by decide
  have hsize : UInt64.size = 18446744073709551616 := rfl
  refine Binary.fits_ofList ?_
  simp only [toChars, List.length_append, List.length_cons, List.length_nil]
  omega

theorem takes_readBytes (t : Instant) : Takes Instant.readBytes t.toBytes t := by
  refine (takes_readString t.fits_toText).bind_nil ?_
  simp only [ofText?_toText]
  exact takes_pure t

theorem delimited_readBytes : Delimited Instant.readBytes := by
  refine delimited_readString.bind fun text ↦ ?_
  split
  · exact delimited_pure _
  · exact delimited_throw _

end Instant

/-! ## The parts of a checkpoint -/

theorem RunState.takes_readBytes (s : RunState) : Takes RunState.readBytes s.toBytes s := by
  cases s with
  | active => exact (takes_readNumber (n := 0) (by decide)).bind_nil (takes_pure _)
  | finished => exact (takes_readNumber (n := 1) (by decide)).bind_nil (takes_pure _)

theorem RunState.delimited_readBytes : Delimited RunState.readBytes := by
  refine (delimited_readNumber 4).bind fun tag ↦ ?_
  split
  · exact delimited_pure _
  · exact delimited_pure _
  · exact delimited_throw _

theorem Step.takes_readBytes {s : Step} (h : s.Fits) : Takes Step.readBytes s.toBytes s := by
  rw [Step.toBytes, List.append_assoc, List.append_assoc]
  exact (takes_readString h.1).bind <| (takes_readString h.2.1).bind <|
    (takes_readString h.2.2).bind <| s.time.takes_readBytes.bind_pure _

theorem Step.delimited_readBytes : Delimited Step.readBytes :=
  delimited_readString.bind fun _ ↦ delimited_readString.bind fun _ ↦
    delimited_readString.bind fun _ ↦ Instant.delimited_readBytes.bind fun _ ↦ delimited_pure _

theorem History.takes_readBytes {h : History} (hh : h.Fits) :
    Takes History.readBytes h.toBytes h := by
  have hsteps : Takes (readList Step.readBytes) (ofList Step.toBytes h.steps) h.steps :=
    takes_readList hh.1 fun s hs ↦ Step.takes_readBytes (hh.2 s hs)
  have hlimit : Takes (readOption readWord64) (ofOption ofWord64 h.limit) h.limit :=
    takes_readOption fun n _ ↦ takes_readWord64 n
  exact hsteps.bind (hlimit.bind_pure _)

theorem History.delimited_readBytes : Delimited History.readBytes :=
  (delimited_readList Step.delimited_readBytes).bind fun _ ↦
    (delimited_readOption delimited_readWord64).bind fun _ ↦ delimited_pure _

namespace Checkpoint

/-- **The reader of checkpoints finds the end.** -/
theorem delimited_readBytes : Delimited readBytes :=
  delimited_readWord32.bind fun _ ↦ delimited_readString.bind fun _ ↦
    Instant.delimited_readBytes.bind fun _ ↦ delimited_readString.bind fun _ ↦
      delimited_readString.bind fun _ ↦ RunState.delimited_readBytes.bind fun _ ↦
        History.delimited_readBytes.bind fun _ ↦ delimited_pure _

/-- **What is written is what the reader takes.** -/
theorem takes_readBytes {c : Checkpoint} (h : c.Fits) : Takes readBytes c.toBytes c := by
  simp only [toBytes, List.append_assoc]
  exact (takes_readWord32 c.version).bind <| (takes_readString h.1).bind <|
    c.time.takes_readBytes.bind <| (takes_readString h.2.1).bind <|
      (takes_readString h.2.2.1).bind <| c.runState.takes_readBytes.bind <|
        (History.takes_readBytes h.2.2.2).bind_pure _

/-! ## Reading checkpoints -/

theorem ofBytes_eq_checkVersion {used : List UInt8} {c : Checkpoint}
    (h : Takes readBytes used c) (rest : List UInt8) : ofBytes (used ++ rest) = c.checkVersion := by
  rw [ofBytes, Reader.run, h.rest rest]
  rfl

theorem ofBytes_eq_unexpectedEnd {used p : List UInt8} {c : Checkpoint}
    (h : Takes readBytes used c) (hp : p <+: used) (hne : p ≠ used) :
    ofBytes p = .error (.unreadable .unexpectedEnd) := by
  rw [ofBytes, Reader.run, h.short p hp hne]
  rfl

/-- The bytes hold a checkpoint, of whatever version. -/
def Holds (bytes : List UInt8) : Prop :=
  (∃ c, ofBytes bytes = .ok c) ∨ ∃ version, ofBytes bytes = .error (.unsupportedVersion version)

/-- Bytes that hold a checkpoint begin with what the reader takes. -/
theorem Holds.exists_takes {bytes : List UInt8} (h : Holds bytes) :
    ∃ c used rest, bytes = used ++ rest ∧ Takes readBytes used c := by
  cases hread : StateT.run readBytes bytes with
  | error e =>
    have hbytes : ofBytes bytes = .error (.unreadable e) := by
      rw [ofBytes, Reader.run, hread]
      rfl
    rcases h with ⟨c, hc⟩ | ⟨version, hversion⟩
    · rw [hbytes] at hc
      cases hc
    · rw [hbytes] at hversion
      cases hversion
  | ok p =>
    obtain ⟨c, rest⟩ := p
    obtain ⟨used, hused, htakes⟩ := delimited_readBytes bytes c rest hread
    exact ⟨c, used, rest, hused, htakes⟩

/-- The first `n` bytes are what is needed: with fewer there is no checkpoint, and with more there
is no other. -/
def EndsAt (bytes : List UInt8) (n : Nat) : Prop :=
  n ≤ bytes.length ∧ ∀ p, p <+: bytes →
    (n ≤ p.length → ofBytes p = ofBytes bytes) ∧
      (p.length < n → ofBytes p = .error (.unreadable .unexpectedEnd))

theorem endsAt_of_takes {used : List UInt8} {c : Checkpoint} (h : Takes readBytes used c)
    (rest : List UInt8) : EndsAt (used ++ rest) used.length := by
  refine ⟨by simp, fun p hp ↦ ⟨fun hle ↦ ?_, fun hlt ↦ ?_⟩⟩
  · obtain ⟨q, rfl⟩ := List.prefix_of_prefix_length_le (List.prefix_append used rest) hp hle
    rw [ofBytes_eq_checkVersion h, ofBytes_eq_checkVersion h]
  · have hused : p <+: used :=
      List.prefix_of_prefix_length_le hp (List.prefix_append used rest) (Nat.le_of_lt hlt)
    refine ofBytes_eq_unexpectedEnd h hused fun heq ↦ ?_
    rw [heq] at hlt
    exact Nat.lt_irrefl _ hlt

/-- **The binary form delimits itself.** A checkpoint is read back from its bytes, up to the check
of its version, and nothing that follows them matters. Any bytes that hold a checkpoint, written
here or not, have such an end. -/
theorem ofBytes_selfDelimiting :
    (∀ c : Checkpoint, c.Fits → ∀ rest : List UInt8,
      ofBytes (c.toBytes ++ rest) =
          (if c.version = 1 then .ok c else .error (.unsupportedVersion c.version)) ∧
        EndsAt (c.toBytes ++ rest) c.toBytes.length) ∧
      ∀ bytes : List UInt8, Holds bytes → ∃ n, EndsAt bytes n := by
  refine ⟨fun c hc rest ↦ ⟨?_, ?_⟩, fun bytes hbytes ↦ ?_⟩
  · rw [ofBytes_eq_checkVersion (takes_readBytes hc)]
    rfl
  · exact endsAt_of_takes (takes_readBytes hc) rest
  · obtain ⟨c, used, rest, rfl, htakes⟩ := hbytes.exists_takes
    exact ⟨used.length, endsAt_of_takes htakes rest⟩

/-- A checkpoint of a later version, with more steps than its limit allows. -/
def later : Checkpoint :=
  ⟨2, "é", default, "a", "", .finished, ⟨[⟨"a", "→", "", default⟩], some 0⟩⟩

theorem ofBytes_later :
    later.Fits ∧ ofBytes (later.toBytes ++ [1, 2]) = .error (.unsupportedVersion 2) ∧
      Holds (later.toBytes ++ [1, 2]) ∧ ∃ n, EndsAt (later.toBytes ++ [1, 2]) n := by
  have hfits : later.Fits := by decide
  have hread := (ofBytes_selfDelimiting.1 later hfits [1, 2]).1
  have hholds : Holds (later.toBytes ++ [1, 2]) := Or.inr ⟨2, hread⟩
  exact ⟨hfits, hread, hholds, ofBytes_selfDelimiting.2 _ hholds⟩

end Checkpoint

end LabelAutomaton
