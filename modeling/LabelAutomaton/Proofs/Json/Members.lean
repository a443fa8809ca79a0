import LabelAutomaton.Json.Reader
import LabelAutomaton.Proofs.Json.Document
import Mathlib.Data.List.Forall2
import Mathlib.Data.List.Nodup

/-!
# What a record is read from

A record can be written as an object, with its fields in any order and other members among them,
or as the array of its fields. `Record.Form names v ms` says that `v` is one of these and that `ms`
are its members; what is read of a record depends on nothing but `Record.valuesOf ms name`, the
values under the name of each field.

What a reader reads is given as a relation between values and what they stand for
(`Reader.Reads`). The members of a record are read just if every field accepts what stands under
its name (`Record.members_eq_ok_iff`); a required field is then read just if it occurs once
(`Record.required_iff`), and one that may be missing if it occurs once or has its default
(`Record.defaulted_iff`), which is often what `null` stands for (`Record.optional_iff`). A record of
such fields alone may also be written as an array of its first fields (`Record.Short`).
-/

set_option autoImplicit false

namespace LabelAutomaton.Json

variable {α β : Type}

theorem ok_bind (a : α) (f : α → Except ReadError β) : (Except.ok a >>= f) = f a := rfl

theorem bind_eq_ok_iff {x : Except ReadError α} {f : α → Except ReadError β} {b : β} :
    (x >>= f) = .ok b ↔ ∃ a, x = .ok a ∧ f a = .ok b := by
  cases x with
  | error cause => exact iff_of_false (fun h ↦ by cases h) (by rintro ⟨a, h, -⟩; cases h)
  | ok a => simp [ok_bind]

theorem map_eq_ok_iff {x : Except ReadError α} {f : α → β} {b : β} :
    f <$> x = .ok b ↔ ∃ a, x = .ok a ∧ f a = b := by
  cases x with
  | error cause => exact iff_of_false (fun h ↦ by cases h) (by rintro ⟨a, h, -⟩; cases h)
  | ok a => simp

/-- What `reader` reads: from the value `v` it reads `a` just if `P v a`. -/
def Reader.Reads (reader : Reader α) (P : Value → α → Prop) : Prop :=
  ∀ v a, reader v = .ok a ↔ P v a

/-- The reader reads only values that have no gap. -/
def Reader.IsWhole (reader : Reader α) : Prop :=
  ∀ v a, reader v = .ok a → v.isComplete = true

theorem Value.ofMembers_eq (ms : List (String × Value)) :
    ofMembers ms = .object (ms.map fun m ↦ (some m.1, m.2)) true := rfl

theorem Record.named_map_some (ms : List (String × Value)) :
    named (ms.map fun m ↦ (some m.1, m.2)) = ms := by
  induction ms with
  | nil => rfl
  | cons m rest ih =>
    rw [named] at ih
    rw [named, List.map_cons, List.filterMap_cons, ih]
    rfl

theorem Value.ofMembers_injective : Function.Injective ofMembers := by
  intro ms ns h
  rw [ofMembers_eq, ofMembers_eq, Value.object.injEq] at h
  rw [← Record.named_map_some ms, ← Record.named_map_some ns]
  exact congrArg Record.named h.1

/-! ## Members -/

namespace Record

/-- The values under a key, in the order in which they stand. -/
def valuesOf (ms : List (String × α)) (name : String) : List α :=
  (ms.filter (·.1 == name)).map (·.2)

/-- There is just one value under the key, and `P` holds of it. -/
def Once (ms : List (String × Value)) (name : String) (P : Value → Prop) : Prop :=
  ∃ v, valuesOf ms name = [v] ∧ P v

/-- The values, or `null` in place of none. -/
def orNull : List Value → List Value
  | [] => [.null]
  | v :: vs => v :: vs

/-- There is no more than one value under the key, and `P` holds of it, or of `null` in its
place. -/
def OnceOrNull (ms : List (String × Value)) (name : String) (P : Value → Prop) : Prop :=
  ∃ v, orNull (valuesOf ms name) = [v] ∧ P v

/-- There is no more than one value under the key; `P` holds of it, or `Q` holds if there is
none. -/
def OnceOr (ms : List (String × Value)) (name : String) (P : Value → Prop) (Q : Prop) : Prop :=
  Once ms name P ∨ valuesOf ms name = [] ∧ Q

/-- The value writes a record that has fields of these names, and its members are `ms`. Members of
other names may hold whatever has no gap. -/
inductive Form (names : List String) : Value → List (String × Value) → Prop
  | object {ms : List (String × Value)}
      (h : ∀ m ∈ ms, m.1 ∉ names → m.2.isComplete = true) : Form names (.ofMembers ms) ms
  | array {items : List Value} (h : items.length = names.length) :
      Form names (.ofList items) (names.zip items)

/-- The value is an array that stands for the first of the fields, and its members are `ms`. -/
inductive Short (names : List String) : Value → List (String × Value) → Prop
  | array {items : List Value} (h : items.length < names.length) :
      Short names (.ofList items) (names.zip items)

theorem Form.isBracketed {names : List String} {v : Value} {ms : List (String × Value)}
    (h : Form names v ms) : v.isBracketed = true := by
  cases h <;> rfl

/-- A value is the record of no more than one list of members. -/
theorem Form.unique {names : List String} {v : Value} {ms ns : List (String × Value)}
    (h : Form names v ms) (h' : Form names v ns) : ms = ns := by
  generalize hw : v = w at h'
  cases h with
  | object =>
    cases h' with
    | object => exact Value.ofMembers_injective hw
    | array => cases hw
  | array =>
    cases h' with
    | object => cases hw
    | array => cases hw; rfl

/-- An array has the members of the object with its items under the names in their order. -/
theorem form_ofList_iff {names : List String} {items : List Value} {ms : List (String × Value)}
    (h : items.length = names.length) :
    Form names (.ofList items) ms ↔ Form names (.ofMembers (names.zip items)) ms := by
  have hobject : Form names (.ofMembers (names.zip items)) (names.zip items) :=
    .object fun m hm hname ↦ absurd (List.of_mem_zip hm).1 hname
  constructor
  · intro hms
    obtain rfl := (Form.array h).unique hms
    exact hobject
  · intro hms
    obtain rfl := hobject.unique hms
    exact .array h

theorem valuesOf_cons_self (name : String) (v : α) (ms : List (String × α)) :
    valuesOf ((name, v) :: ms) name = v :: valuesOf ms name := by
  rw [valuesOf, List.filter_cons_of_pos (by simp), List.map_cons, valuesOf]

theorem valuesOf_cons_of_ne {m : String × α} {name : String} (h : m.1 ≠ name)
    (ms : List (String × α)) : valuesOf (m :: ms) name = valuesOf ms name := by
  rw [valuesOf, List.filter_cons_of_neg (by simpa using h), valuesOf]

theorem mem_valuesOf_iff {ms : List (String × α)} {name : String} {v : α} :
    v ∈ valuesOf ms name ↔ (name, v) ∈ ms := by
  simp only [valuesOf, List.mem_map, List.mem_filter, beq_iff_eq, Prod.exists]
  constructor
  · rintro ⟨_, _, ⟨hmem, rfl⟩, rfl⟩
    exact hmem
  · exact fun hmem ↦ ⟨name, v, ⟨hmem, rfl⟩, rfl⟩

theorem lookup_eq_head? (ms : List (String × α)) (name : String) :
    ms.lookup name = (valuesOf ms name).head? := by
  induction ms with
  | nil => rfl
  | cons m ms ih =>
    obtain ⟨key, v⟩ := m
    by_cases hkey : key = name
    · subst hkey
      rw [List.lookup_cons_self, valuesOf_cons_self, List.head?_cons]
    · rw [List.lookup_cons, valuesOf_cons_of_ne hkey, ← ih]
      rw [beq_false_of_ne (Ne.symm hkey)]

/-- Under a name that occurs once among the names of an array there is one value. -/
theorem length_valuesOf_zip_le {names : List String} (hnodup : names.Nodup) (items : List Value)
    (name : String) : (valuesOf (names.zip items) name).length ≤ 1 := by
  induction names generalizing items with
  | nil => simp [valuesOf]
  | cons key names ih =>
    cases items with
    | nil => simp [valuesOf]
    | cons v items =>
      obtain ⟨hkey, hnames⟩ := List.nodup_cons.1 hnodup
      rw [List.zip_cons_cons]
      by_cases heq : key = name
      · subst heq
        have hnone : valuesOf (names.zip items) key = [] :=
          List.eq_nil_iff_forall_not_mem.2 fun w hw ↦
            hkey (List.of_mem_zip (mem_valuesOf_iff.1 hw)).1
        rw [valuesOf_cons_self, hnone]
        exact Nat.le_refl 1
      · rw [valuesOf_cons_of_ne heq]
        exact ih hnames items

end Record

/-- What stands under the name of the field passes its check, and nothing stands there twice. -/
def Field.Accepts (f : Field) (ms : List (String × Value)) : Prop :=
  (Record.valuesOf ms f.name).length ≤ 1 ∧ ∀ v ∈ Record.valuesOf ms f.name, f.check v = .ok ()

/-- The field accepts no value that has a gap. -/
def Field.IsWhole (f : Field) : Prop := ∀ v, f.check v = .ok () → v.isComplete = true

namespace Record

/-- The field accepts its members, and has none if it was seen before. -/
def AcceptsAfter (seen : List String) (f : Field) (ms : List (String × Value)) : Prop :=
  f.Accepts ms ∧ (f.name ∈ seen → valuesOf ms f.name = [])

/-- A member of another name does not matter to a field. -/
theorem acceptsAfter_cons_of_ne {f : Field} {m : String × Value} (h : m.1 ≠ f.name)
    (seen : List String) (ms : List (String × Value)) :
    AcceptsAfter seen f (m :: ms) ↔ AcceptsAfter seen f ms := by
  rw [AcceptsAfter, AcceptsAfter, Field.Accepts, Field.Accepts, valuesOf_cons_of_ne h]

theorem acceptsAfter_cons_seen_of_ne {f : Field} {key : String} (h : key ≠ f.name)
    (seen : List String) (ms : List (String × Value)) :
    AcceptsAfter (key :: seen) f ms ↔ AcceptsAfter seen f ms := by
  rw [AcceptsAfter, AcceptsAfter, List.mem_cons, or_iff_right (Ne.symm h)]

/-- A member of the field must be the first that was seen, and there must be no other. -/
theorem acceptsAfter_cons_self {f : Field} {seen : List String} {v : Value}
    {ms : List (String × Value)} :
    AcceptsAfter seen f ((f.name, v) :: ms) ↔
      f.name ∉ seen ∧ f.check v = .ok () ∧ AcceptsAfter (f.name :: seen) f ms := by
  rw [AcceptsAfter, AcceptsAfter, Field.Accepts, Field.Accepts, valuesOf_cons_self,
    List.length_cons, List.forall_mem_cons]
  constructor
  · rintro ⟨⟨hlength, hcheck, -⟩, hseen⟩
    have hnil : valuesOf ms f.name = [] := List.eq_nil_of_length_eq_zero (by omega)
    refine ⟨fun h ↦ ?_, hcheck, ?_, fun _ ↦ hnil⟩
    · cases hseen h
    · simp [hnil]
  · rintro ⟨hseen, hcheck, -, hnil⟩
    rw [hnil List.mem_cons_self]
    exact ⟨⟨Nat.le_refl 1, hcheck, by simp⟩, fun h ↦ absurd h hseen⟩

/-- Among fields with different names, a field is found by its name. -/
theorem find?_name {fields : List Field} (hnodup : (fields.map (·.name)).Nodup) {f : Field}
    (hf : f ∈ fields) : fields.find? (·.name == f.name) = some f := by
  induction fields with
  | nil => cases hf
  | cons g rest ih =>
    rw [List.map_cons, List.nodup_cons] at hnodup
    rcases List.mem_cons.1 hf with rfl | hf
    · exact List.find?_cons_of_pos (by simp)
    · have hne : g.name ≠ f.name := fun heq ↦ hnodup.1 (heq ▸ List.mem_map_of_mem hf)
      rw [List.find?_cons_of_neg (by simpa using hne)]
      exact ih hnodup.2 hf

/-- The keys of an object that passes have texts. -/
theorem exists_keys_of_check {fields : List Field} {seen : List String}
    {members : List (Option String × Value)} (h : check fields seen members = .ok ()) :
    ∃ ms : List (String × Value), members = ms.map fun m ↦ (some m.1, m.2) := by
  induction members generalizing seen with
  | nil => exact ⟨[], rfl⟩
  | cons m members ih =>
    obtain ⟨key, v⟩ := m
    cases key with
    | none => cases h
    | some key =>
      have hrest : ∃ seen', check fields seen' members = .ok () := by
        rw [check] at h
        split at h
        · split at h
          · cases h
          · obtain ⟨_, -, hrest⟩ := bind_eq_ok_iff.1 h
            exact ⟨_, hrest⟩
        · split at h
          · exact ⟨_, h⟩
          · cases h
      obtain ⟨seen', hrest⟩ := hrest
      obtain ⟨ms, rfl⟩ := ih hrest
      exact ⟨(key, v) :: ms, rfl⟩

variable {fields : List Field} (hnodup : (fields.map (·.name)).Nodup)

/-- A member of no field must have no gap. -/
theorem check_cons_of_notMem {key : String} (hkey : key ∉ fields.map (·.name))
    (seen : List String) (v : Value) (members : List (Option String × Value)) :
    check fields seen ((some key, v) :: members) = .ok () ↔
      v.isComplete = true ∧ check fields seen members = .ok () := by
  have hnone : fields.find? (·.name == key) = none :=
    List.find?_eq_none.2 fun f hf hname ↦ hkey (List.mem_map.2 ⟨f, hf, beq_iff_eq.1 hname⟩)
  rw [check, hnone]
  by_cases hv : v.isComplete = true <;> simp [hv]

include hnodup

/-- A member of a field must be the first and pass the check of the field. -/
theorem check_cons_of_mem {f : Field} (hf : f ∈ fields) (seen : List String) (v : Value)
    (members : List (Option String × Value)) :
    check fields seen ((some f.name, v) :: members) = .ok () ↔
      f.name ∉ seen ∧ f.check v = .ok () ∧ check fields (f.name :: seen) members = .ok () := by
  rw [check, find?_name hnodup hf]
  by_cases hseen : f.name ∈ seen
  · simp [hseen]
  · have hcontains : seen.contains f.name = false := by simpa using hseen
    simp only [hcontains, hseen, not_false_eq_true, true_and]
    rw [if_neg (by simp), bind_eq_ok_iff]
    constructor
    · rintro ⟨_, hcheck, hrest⟩
      exact ⟨hcheck, hrest⟩
    · rintro ⟨hcheck, hrest⟩
      exact ⟨(), hcheck, hrest⟩

/-- A member of a field is taken up by this field and does not matter to the others. -/
theorem forall_acceptsAfter_cons {field : Field} (hfield : field ∈ fields) {seen : List String}
    {v : Value} {ms : List (String × Value)} :
    (∀ f ∈ fields, AcceptsAfter seen f ((field.name, v) :: ms)) ↔
      field.name ∉ seen ∧ field.check v = .ok () ∧
        ∀ f ∈ fields, AcceptsAfter (field.name :: seen) f ms := by
  have hother : ∀ f ∈ fields, f ≠ field → (AcceptsAfter seen f ((field.name, v) :: ms) ↔
      AcceptsAfter (field.name :: seen) f ms) := by
    intro f hf hne
    have hname : field.name ≠ f.name := fun heq ↦
      hne (List.inj_on_of_nodup_map hnodup hf hfield heq.symm)
    rw [acceptsAfter_cons_of_ne hname, acceptsAfter_cons_seen_of_ne hname]
  constructor
  · intro h
    obtain ⟨hseen, hcheck, hself⟩ := acceptsAfter_cons_self.1 (h field hfield)
    refine ⟨hseen, hcheck, fun f hf ↦ ?_⟩
    by_cases heq : f = field
    · exact heq ▸ hself
    · exact (hother f hf heq).1 (h f hf)
  · rintro ⟨hseen, hcheck, h⟩ f hf
    by_cases heq : f = field
    · subst heq
      exact acceptsAfter_cons_self.2 ⟨hseen, hcheck, h f hf⟩
    · exact (hother f hf heq).2 (h f hf)

/-- **An object passes just if every field accepts its members** and the other members have no
gap. -/
theorem check_eq_ok_iff {ms : List (String × Value)} {seen : List String} :
    check fields seen (ms.map fun m ↦ (some m.1, m.2)) = .ok () ↔
      (∀ f ∈ fields, AcceptsAfter seen f ms) ∧
        ∀ m ∈ ms, m.1 ∉ fields.map (·.name) → m.2.isComplete = true := by
  induction ms generalizing seen with
  | nil => simp [check, AcceptsAfter, Field.Accepts, valuesOf]
  | cons m ms ih =>
    obtain ⟨key, v⟩ := m
    rw [List.map_cons, List.forall_mem_cons]
    by_cases hkey : key ∈ fields.map (·.name)
    · obtain ⟨field, hfield, rfl⟩ := List.mem_map.1 hkey
      rw [check_cons_of_mem hnodup hfield, ih, forall_acceptsAfter_cons hnodup hfield]
      simp only [hkey, not_true_eq_false, false_implies, true_and, and_assoc]
    · have hne : ∀ f ∈ fields, key ≠ f.name := fun f hf heq ↦
        hkey (List.mem_map.2 ⟨f, hf, heq.symm⟩)
      rw [check_cons_of_notMem hkey, ih]
      simp only [hkey, not_false_eq_true, true_implies]
      rw [and_left_comm]
      refine and_congr_left fun _ ↦ forall₂_congr fun f hf ↦ ?_
      exact (acceptsAfter_cons_of_ne (hne f hf) seen ms).symm

omit hnodup in
theorem checkItems_eq_ok_iff {pairs : List (Field × Value)} :
    checkItems pairs = .ok () ↔ ∀ p ∈ pairs, p.1.check p.2 = .ok () := by
  induction pairs with
  | nil => simp [checkItems]
  | cons p pairs ih =>
    rw [checkItems, bind_eq_ok_iff, List.forall_mem_cons, ← ih]
    constructor
    · rintro ⟨_, hcheck, hrest⟩
      exact ⟨hcheck, hrest⟩
    · rintro ⟨hcheck, hrest⟩
      exact ⟨(), hcheck, hrest⟩

omit hnodup in
/-- The members of an array are named by its fields. -/
theorem map_zip_name (items : List Value) :
    (fields.zip items).map (fun p ↦ (p.1.name, p.2)) = (fields.map (·.name)).zip items := by
  rw [List.zip_map_left]
  rfl

/-- In an array every field stands for the item in its place. -/
theorem accepts_zip_iff {items : List Value} :
    (∀ f ∈ fields, f.Accepts ((fields.map (·.name)).zip items)) ↔
      ∀ p ∈ fields.zip items, p.1.check p.2 = .ok () := by
  rw [← map_zip_name]
  constructor
  · rintro h ⟨f, v⟩ hp
    refine (h f (List.of_mem_zip hp).1).2 v (mem_valuesOf_iff.2 ?_)
    exact List.mem_map_of_mem (f := fun p : Field × Value ↦ (p.1.name, p.2)) hp
  · intro h f hf
    refine ⟨?_, fun w hw ↦ ?_⟩
    · rw [map_zip_name]
      exact length_valuesOf_zip_le hnodup items f.name
    · obtain ⟨⟨g, v⟩, hp, heq⟩ := List.mem_map.1 (mem_valuesOf_iff.1 hw)
      obtain ⟨hname, rfl⟩ := Prod.mk.inj heq
      obtain rfl := List.inj_on_of_nodup_map hnodup (List.of_mem_zip hp).1 hf hname
      exact h _ hp

omit hnodup in
theorem members_object_eq_ok_iff {defaulted : Bool} {members : List (Option String × Value)}
    {closed : Bool} {ms : List (String × Value)} :
    Record.members fields defaulted (.object members closed) = .ok ms ↔
      closed = true ∧ members = (ms.map fun m ↦ (some m.1, m.2)) ∧
        check fields [] members = .ok () := by
  rw [Record.members, bind_eq_ok_iff]
  constructor
  · rintro ⟨_, hcheck, h⟩
    obtain ⟨ns, rfl⟩ := exists_keys_of_check hcheck
    cases closed with
    | false => cases h
    | true =>
      obtain rfl : ns = ms := by
        rw [← named_map_some ns]
        exact Except.ok.inj h
      exact ⟨rfl, rfl, hcheck⟩
  · rintro ⟨rfl, rfl, hcheck⟩
    exact ⟨(), hcheck, congrArg Except.ok (named_map_some ms)⟩

omit hnodup in
/-- An array must not have too many items, and too few only if the fields are defaulted. -/
theorem members_array_eq_ok_iff {defaulted : Bool} {items : List Value} {closed : Bool}
    {ms : List (String × Value)} :
    Record.members fields defaulted (.array items closed) = .ok ms ↔
      closed = true ∧
        (items.length = fields.length ∨ defaulted = true ∧ items.length < fields.length) ∧
        (fields.map (·.name)).zip items = ms ∧ checkItems (fields.zip items) = .ok () := by
  rw [Record.members, bind_eq_ok_iff]
  constructor
  · rintro ⟨_, hcheck, h⟩
    cases closed with
    | false => cases h
    | true =>
      rcases Nat.lt_trichotomy items.length fields.length with hlt | heq | hlt
      · cases defaulted with
        | false => simp [hlt, Nat.not_lt_of_gt hlt, bind, Except.bind] at h
        | true =>
          refine ⟨rfl, .inr ⟨rfl, hlt⟩, ?_, hcheck⟩
          simpa [Nat.not_lt_of_gt hlt, map_zip_name, pure, Except.pure] using h
      · refine ⟨rfl, .inl heq, ?_, hcheck⟩
        simpa [heq, map_zip_name, pure, Except.pure] using h
      · simp [hlt, bind, Except.bind] at h
  · rintro ⟨rfl, heq | ⟨rfl, hlt⟩, rfl, hcheck⟩
    · exact ⟨(), hcheck, by simp [heq, map_zip_name, pure, Except.pure]⟩
    · refine ⟨(), hcheck, ?_⟩
      simp [Nat.not_lt_of_gt hlt, map_zip_name, pure, Except.pure]

/-- **The members of a record are read just if it has the form of one**, or is a short array and
the fields are defaulted, and every field accepts its members. -/
theorem members_eq_ok_iff_of_defaulted {defaulted : Bool} {v : Value}
    {ms : List (String × Value)} :
    members fields defaulted v = .ok ms ↔
      (Form (fields.map (·.name)) v ms ∨ defaulted = true ∧ Short (fields.map (·.name)) v ms) ∧
        ∀ f ∈ fields, f.Accepts ms := by
  have hfields : (∀ f ∈ fields, AcceptsAfter [] f ms) ↔ ∀ f ∈ fields, f.Accepts ms := by
    simp [AcceptsAfter]
  constructor
  · intro h
    cases v with
    | object members closed =>
      obtain ⟨rfl, rfl, hcheck⟩ := members_object_eq_ok_iff.1 h
      obtain ⟨haccepts, hunknown⟩ := (check_eq_ok_iff hnodup).1 hcheck
      exact ⟨.inl (.object hunknown), hfields.1 haccepts⟩
    | array items closed =>
      obtain ⟨rfl, hlength, rfl, hcheck⟩ := members_array_eq_ok_iff.1 h
      refine ⟨?_, (accepts_zip_iff hnodup).2 (checkItems_eq_ok_iff.1 hcheck)⟩
      rcases hlength with heq | ⟨hdefaulted, hlt⟩
      · exact .inl (.array (by rw [heq, List.length_map]))
      · exact .inr ⟨hdefaulted, .array (by rwa [List.length_map])⟩
    | _ => cases h
  · rintro ⟨hform, haccepts⟩
    have hitems {items : List Value}
        (haccepts : ∀ f ∈ fields, f.Accepts ((fields.map (·.name)).zip items)) :
        checkItems (fields.zip items) = .ok () :=
      checkItems_eq_ok_iff.2 ((accepts_zip_iff hnodup).1 haccepts)
    rcases hform with hform | ⟨hdefaulted, hshort⟩
    · cases hform with
      | object hunknown =>
        exact members_object_eq_ok_iff.2
          ⟨rfl, rfl, (check_eq_ok_iff hnodup).2 ⟨hfields.2 haccepts, hunknown⟩⟩
      | array hlength =>
        rw [List.length_map] at hlength
        exact members_array_eq_ok_iff.2 ⟨rfl, .inl hlength, rfl, hitems haccepts⟩
    · cases hshort with
      | array hlength =>
        rw [List.length_map] at hlength
        exact members_array_eq_ok_iff.2 ⟨rfl, .inr ⟨hdefaulted, hlength⟩, rfl, hitems haccepts⟩

theorem members_eq_ok_iff {v : Value} {ms : List (String × Value)} :
    members fields false v = .ok ms ↔
      Form (fields.map (·.name)) v ms ∧ ∀ f ∈ fields, f.Accepts ms := by
  rw [members_eq_ok_iff_of_defaulted hnodup]
  simp

theorem members_bind_eq_ok_iff {next : List (String × Value) → Except ReadError α} {v : Value}
    {a : α} :
    (members fields false v >>= next) = .ok a ↔
      ∃ ms, Form (fields.map (·.name)) v ms ∧ (∀ f ∈ fields, f.Accepts ms) ∧ next ms = .ok a := by
  simp only [bind_eq_ok_iff, members_eq_ok_iff hnodup, and_assoc]

theorem isBracketed_of_members_bind {next : List (String × Value) → Except ReadError α}
    {v : Value} {a : α} (h : (members fields false v >>= next) = .ok a) :
    v.isBracketed = true := by
  obtain ⟨ms, hform, -⟩ := (members_bind_eq_ok_iff hnodup).1 h
  exact hform.isBracketed

/-- A record has no gap if its fields accept only what has none. -/
theorem isWhole_members_bind {defaulted : Bool} (hwhole : ∀ f ∈ fields, f.IsWhole)
    (next : List (String × Value) → Except ReadError α) :
    Reader.IsWhole fun v ↦ members fields defaulted v >>= next := by
  intro v a h
  obtain ⟨ms, hmembers, -⟩ := bind_eq_ok_iff.1 h
  obtain ⟨hform, hfields⟩ := (members_eq_ok_iff_of_defaulted hnodup).1 hmembers
  have hmember : ∀ m ∈ ms, ∀ f ∈ fields, f.name = m.1 → m.2.isComplete = true := by
    intro m hm f hf hname
    refine hwhole f hf m.2 ((hfields f hf).2 m.2 (mem_valuesOf_iff.2 ?_))
    rwa [hname]
  have hitems {items : List Value} (hlength : items.length ≤ (fields.map (·.name)).length)
      (hms : ms = (fields.map (·.name)).zip items) : (Value.ofList items).isComplete = true := by
    refine Value.isComplete_array_iff.2 ⟨rfl, fun w hw ↦ ?_⟩
    rw [← List.map_snd_zip hlength, ← hms, List.mem_map] at hw
    obtain ⟨m, hm, rfl⟩ := hw
    obtain ⟨f, hf, heq⟩ := List.mem_map.1 (List.of_mem_zip (hms ▸ hm)).1
    exact hmember m hm f hf heq
  rcases hform with hform | ⟨-, hshort⟩
  · cases hform with
    | object hunknown =>
      rw [Value.ofMembers_eq]
      refine Value.isComplete_object_iff.2 ⟨rfl, List.forall_mem_map.2 fun m hm ↦ ?_⟩
      by_cases hname : m.1 ∈ fields.map (·.name)
      · obtain ⟨f, hf, heq⟩ := List.mem_map.1 hname
        exact hmember m hm f hf heq
      · exact hunknown m hm hname
    | array hlength => exact hitems (Nat.le_of_eq hlength) rfl
  · cases hshort with
    | array hlength => exact hitems (Nat.le_of_lt hlength) rfl

omit hnodup

/-! ## Fields -/

theorem check_of_eq_ok_iff {name : String} {reader : Reader α} {v : Value} :
    (Field.of name reader).check v = .ok () ↔ ∃ a, reader v = .ok a := by
  show (fun _ ↦ ()) <$> reader v = .ok () ↔ _
  simp [map_eq_ok_iff]

theorem isWhole_of {name : String} {reader : Reader α} (h : reader.IsWhole) :
    (Field.of name reader).IsWhole := by
  intro v hv
  obtain ⟨a, ha⟩ := check_of_eq_ok_iff.1 hv
  exact h v a ha

variable {name : String} {reader : Reader α} {P : Value → α → Prop} {ms : List (String × Value)}

/-- A field accepts its members if it does not occur, or occurs once and is read. -/
theorem accepts_of_iff (h : reader.Reads P) :
    (Field.of name reader).Accepts ms ↔
      valuesOf ms name = [] ∨ ∃ a, Once ms name (P · a) := by
  show (valuesOf ms name).length ≤ 1 ∧ (∀ v ∈ valuesOf ms name, _) ↔ _
  constructor
  · rintro ⟨hlength, hcheck⟩
    rcases hvalues : valuesOf ms name with _ | ⟨v, rest⟩
    · exact .inl rfl
    · rw [hvalues] at hlength hcheck
      obtain rfl : rest = [] := List.eq_nil_of_length_eq_zero (by simpa using hlength)
      obtain ⟨a, ha⟩ := check_of_eq_ok_iff.1 (hcheck v List.mem_cons_self)
      exact .inr ⟨a, v, hvalues, (h v a).1 ha⟩
  · rintro (hnil | ⟨a, v, hv, ha⟩)
    · simp [hnil]
    · simp [hv, check_of_eq_ok_iff, (h v a).2 ha]

/-- **A required field is read just if it occurs once** and its value is read. -/
theorem required_iff (h : reader.Reads P) {a : α} :
    (Field.of name reader).Accepts ms ∧ required ms name reader = .ok a ↔
      Once ms name (P · a) := by
  rw [required, lookup_eq_head?, accepts_of_iff h]
  constructor
  · rintro ⟨hnil | ⟨b, v, hv, -⟩, hread⟩
    · rw [hnil] at hread
      cases hread
    · rw [hv] at hread
      exact ⟨v, hv, (h v a).1 hread⟩
  · rintro ⟨v, hv, ha⟩
    refine ⟨.inr ⟨a, v, hv, ha⟩, ?_⟩
    rw [hv]
    exact (h v a).2 ha

/-- **A field that may be missing is read just if it occurs once** and its value is read, or if it
does not occur; then it has its default. -/
theorem defaulted_iff (h : reader.Reads P) {a default : α} :
    (Field.of name reader).Accepts ms ∧ optional ms name reader default = .ok a ↔
      OnceOr ms name (P · a) (a = default) := by
  rw [optional, lookup_eq_head?, accepts_of_iff h, OnceOr]
  rcases hvalues : valuesOf ms name with _ | ⟨v, rest⟩
  · simp [Once, hvalues, eq_comm]
  · simp only [List.head?_cons, h v a, Once, hvalues, reduceCtorEq, false_or, false_and, or_false]
    constructor
    · rintro ⟨⟨b, w, hw, -⟩, ha⟩
      exact ⟨v, by rw [(List.cons.inj hw).2], ha⟩
    · rintro ⟨w, hw, ha⟩
      cases hw
      exact ⟨⟨a, v, rfl, ha⟩, ha⟩

/-- A field that may be missing can be read just if it does not occur twice and what stands there
can be read. -/
theorem exists_onceOr_iff {default : α} :
    (∃ a, OnceOr ms name (P · a) (a = default)) ↔
      (valuesOf ms name).length ≤ 1 ∧ ∀ v ∈ valuesOf ms name, ∃ a, P v a := by
  simp only [OnceOr, Once]
  rcases valuesOf ms name with _ | ⟨v, _ | ⟨w, rest⟩⟩ <;> simp

/-- It is read as if `null` stood for it where it is missing, if that is how the default is
written. -/
theorem optional_iff (h : reader.Reads P) {a default : α} (hnull : reader .null = .ok default) :
    (Field.of name reader).Accepts ms ∧ optional ms name reader default = .ok a ↔
      OnceOrNull ms name (P · a) := by
  have hdefault : P .null a ↔ a = default := by
    rw [← h .null a, hnull, Except.ok.injEq, eq_comm]
  rw [defaulted_iff h, OnceOr, OnceOrNull, Once, ← hdefault]
  rcases valuesOf ms name with _ | ⟨v, rest⟩ <;> simp [orNull]

/-! ## Likeness -/

/-- Values that are related stand for the same, if the relation says so of each. -/
theorem Once.of_forall₂ {ns : List (String × Value)} {P Q : Value → Prop}
    {R : Value → Value → Prop} (h : Once ms name P)
    (hvalues : List.Forall₂ R (valuesOf ms name) (valuesOf ns name))
    (hrel : ∀ v w, R v w → P v → Q w) : Once ns name Q := by
  obtain ⟨v, hv, hP⟩ := h
  rw [hv, List.forall₂_cons_left_iff] at hvalues
  obtain ⟨w, rest, hvw, hrest, hw⟩ := hvalues
  rw [List.forall₂_nil_left_iff.1 hrest] at hw
  exact ⟨w, hw, hrel v w hvw hP⟩

theorem Once.of_eq {ns : List (String × Value)} {P : Value → Prop} (h : Once ms name P)
    (hvalues : valuesOf ms name = valuesOf ns name) : Once ns name P := by
  rwa [Once, ← hvalues]

/-- The order of the values is no matter where there is no more than one. -/
theorem OnceOr.of_perm {ns : List (String × Value)} {P : Value → Prop} {Q : Prop}
    (h : OnceOr ms name P Q) (hvalues : (valuesOf ms name).Perm (valuesOf ns name)) :
    OnceOr ns name P Q := by
  rcases h with ⟨v, hv, hP⟩ | ⟨hnil, hQ⟩
  · rw [hv, List.singleton_perm] at hvalues
    exact .inl ⟨v, hvalues.symm, hP⟩
  · rw [hnil, List.nil_perm] at hvalues
    exact .inr ⟨hvalues, hQ⟩

theorem OnceOrNull.of_eq {ns : List (String × Value)} {P : Value → Prop}
    (h : OnceOrNull ms name P)
    (hvalues : orNull (valuesOf ms name) = orNull (valuesOf ns name)) : OnceOrNull ns name P := by
  rwa [OnceOrNull, ← hvalues]

end Record

end LabelAutomaton.Json
