import LabelAutomaton.Json.Document
import LabelAutomaton.Proofs.Json.Token

/-!
# The grammar of documents

`Value.Spelling v text` says that the text writes the value `v`: it spells the tokens of the value,
in any of the ways in which tokens can be spelled and with any white space between them, and the
value has no gap. These are the JSON documents; the reader does not occur in it.

The reader accepts what the grammar derives and nothing else (`Document.ofText_eq_iff`): it puts a
value together from its tokens wherever it stands (`Value.rebuilt`), and the tokens that it went
through for a value without a gap are those of the value (`tokens_of_readValue`). Behind a bracket
the text may go on with whatever it likes, which is then left over (`Document.ofText_append`).

Values that are made to be written are `Plain`. They are written in one of their spellings
(`Value.Plain.spelling`).
-/

set_option autoImplicit false

namespace LabelAutomaton.Json

namespace Value

/-- Induction over a value and all that it holds. -/
@[elab_as_elim]
theorem inductionOn {P : Value → Prop} (broken : P broken) (null : P null)
    (bool : ∀ b, P (bool b)) (number : ∀ n, P (number n)) (string : ∀ text, P (string text))
    (array : ∀ items closed, (∀ v ∈ items, P v) → P (array items closed))
    (object : ∀ members closed, (∀ m ∈ members, P m.2) → P (object members closed)) (v : Value) :
    P v := by
  match v with
  | .broken => exact broken
  | .null => exact null
  | .bool b => exact bool b
  | .number n => exact number n
  | .string text => exact string text
  | .array items closed =>
    exact array items closed fun v hv ↦
      inductionOn broken null bool number string array object v
  | .object members closed =>
    exact object members closed fun m hm ↦
      inductionOn broken null bool number string array object m.2
termination_by sizeOf v
decreasing_by
  · have := List.sizeOf_lt_of_mem hv
    simp only [Value.array.sizeOf_spec]
    omega
  · have := List.sizeOf_lt_of_mem hm
    have : sizeOf m = 1 + sizeOf m.1 + sizeOf m.2 := rfl
    simp only [Value.object.sizeOf_spec]
    omega

theorem isComplete_array_iff {items : List Value} {closed : Bool} :
    (array items closed).isComplete = true ↔
      closed = true ∧ ∀ v ∈ items, v.isComplete = true := by
  have hitems : areComplete items = true ↔ ∀ v ∈ items, v.isComplete = true := by
    induction items with
    | nil => simp [areComplete]
    | cons v rest ih => simp [areComplete, ih]
  rw [isComplete, Bool.and_eq_true, hitems]

theorem isComplete_object_iff {members : List (Option String × Value)} {closed : Bool} :
    (object members closed).isComplete = true ↔
      closed = true ∧ ∀ m ∈ members, m.2.isComplete = true := by
  have hmembers : membersComplete members = true ↔ ∀ m ∈ members, m.2.isComplete = true := by
    induction members with
    | nil => simp [membersComplete]
    | cons m rest ih =>
      obtain ⟨key, v⟩ := m
      simp [membersComplete, ih]
  rw [isComplete, Bool.and_eq_true, hmembers]

/-! ## The tokens of a value -/

/-- The tokens of one member. -/
def tokensOfMember (m : Option String × Value) : List Token := .string m.1 :: .colon :: m.2.tokens

theorem tokens_array (items : List Value) (closed : Bool) :
    (array items closed).tokens = .openArray :: (joined (items.map tokens) ++ [.closeArray]) := by
  have hitems : itemTokens items = items.map tokens := by
    induction items with
    | nil => rfl
    | cons v rest ih => rw [itemTokens, ih, List.map_cons]
  rw [tokens, hitems, List.cons_append]

theorem tokens_object (members : List (Option String × Value)) (closed : Bool) :
    (object members closed).tokens =
      .openObject :: (joined (members.map tokensOfMember) ++ [.closeObject]) := by
  have hmembers : memberTokens members = members.map tokensOfMember := by
    induction members with
    | nil => rfl
    | cons m rest ih => rw [memberTokens, ih, List.map_cons, tokensOfMember]
  rw [tokens, hmembers, List.cons_append]

theorem joined_cons_cons (ts us : List Token) (rest : List (List Token)) :
    joined (ts :: us :: rest) = ts ++ .comma :: joined (us :: rest) := by
  rw [joined]
  exact List.cons_ne_nil us rest

/-- Lists with a comma behind each. -/
def listed (parts : List (List Token)) : List Token := parts.flatMap (· ++ [.comma])

theorem listed_concat (parts : List (List Token)) (ts : List Token) :
    listed (parts ++ [ts]) = listed parts ++ (ts ++ [.comma]) := by
  rw [listed, List.flatMap_append, List.flatMap_singleton, listed]

theorem joined_concat (parts : List (List Token)) (ts : List Token) :
    joined (parts ++ [ts]) = listed parts ++ ts := by
  induction parts with
  | nil => rfl
  | cons us rest ih =>
    cases rest with
    | nil => simp [joined, listed]
    | cons vs rest =>
      rw [List.cons_append, List.cons_append, joined_cons_cons, ← List.cons_append, ih, listed,
        listed, List.flatMap_cons]
      simp

theorem forall_mem_joined {P : Token → Prop} (hcomma : P .comma) {parts : List (List Token)}
    (h : ∀ us ∈ parts, ∀ t ∈ us, P t) : ∀ t ∈ joined parts, P t := by
  induction parts with
  | nil => simp [joined]
  | cons us rest ih =>
    have hus := h us List.mem_cons_self
    have hrest := ih fun vs hvs ↦ h vs (List.mem_cons_of_mem us hvs)
    cases rest with
    | nil => exact hus
    | cons vs rest =>
      rw [joined_cons_cons]
      intro t ht
      rcases List.mem_append.1 ht with ht | ht
      · exact hus t ht
      · rcases List.mem_cons.1 ht with rfl | ht
        · exact hcomma
        · exact hrest t ht

section

variable {P : Token → Prop} (hfixed : ∀ t : Token, t.isFixed = true → P t)

include hfixed

/-- What holds of marks and of the items holds of an array. -/
theorem forall_mem_tokens_array {items : List Value} (closed : Bool)
    (h : ∀ v ∈ items, ∀ t ∈ v.tokens, P t) : ∀ t ∈ (array items closed).tokens, P t := by
  have hitems : ∀ t ∈ joined (items.map tokens), P t :=
    forall_mem_joined (hfixed _ rfl) (by simpa using h)
  simp only [tokens_array, List.mem_cons, List.mem_append, List.not_mem_nil, or_false]
  rintro t (rfl | ht | rfl)
  · exact hfixed _ rfl
  · exact hitems t ht
  · exact hfixed _ rfl

/-- What holds of marks, of the keys and of the values holds of an object. -/
theorem forall_mem_tokens_object {members : List (Option String × Value)} (closed : Bool)
    (hkeys : ∀ m ∈ members, P (.string m.1)) (h : ∀ m ∈ members, ∀ t ∈ m.2.tokens, P t) :
    ∀ t ∈ (object members closed).tokens, P t := by
  have hmembers : ∀ t ∈ joined (members.map tokensOfMember), P t := by
    refine forall_mem_joined (hfixed _ rfl) fun us hus ↦ ?_
    obtain ⟨m, hm, rfl⟩ := List.mem_map.1 hus
    simp only [tokensOfMember, List.mem_cons]
    rintro t (rfl | rfl | ht)
    · exact hkeys m hm
    · exact hfixed _ rfl
    · exact h m hm t ht
  simp only [tokens_object, List.mem_cons, List.mem_append, List.not_mem_nil, or_false]
  rintro t (rfl | ht | rfl)
  · exact hfixed _ rfl
  · exact hmembers t ht
  · exact hfixed _ rfl

end

/-- No number is followed by more of a number in the tokens of a value, if none is behind it. -/
theorem isChain_tokens_append (v : Value) :
    ∀ ts : List Token, ts.IsChain Token.Separable → (∀ t ∈ ts.head?, t.followsValue = true) →
      (v.tokens ++ ts).IsChain Token.Separable := by
  have hcons {t : Token} {ts : List Token} (ht : t.isNumber = false)
      (hts : ts.IsChain Token.Separable) : (t :: ts).IsChain Token.Separable := by
    refine List.isChain_cons.2 ⟨fun u _ hnumber ↦ ?_, hts⟩
    rw [ht] at hnumber
    cases hnumber
  -- the parts of a list, each of which may be put in front
  have hjoined {parts : List (List Token)} (hparts : ∀ us ∈ parts, ∀ ts : List Token,
      ts.IsChain Token.Separable → (∀ t ∈ ts.head?, t.followsValue = true) →
        (us ++ ts).IsChain Token.Separable) {ts : List Token} (hts : ts.IsChain Token.Separable)
      (hhead : ∀ t ∈ ts.head?, t.followsValue = true) :
      (joined parts ++ ts).IsChain Token.Separable := by
    induction parts with
    | nil => exact hts
    | cons us rest ih =>
      have hus := hparts us List.mem_cons_self
      have hrest := ih fun vs hvs ↦ hparts vs (List.mem_cons_of_mem us hvs)
      cases rest with
      | nil => exact hus ts hts hhead
      | cons vs rest =>
        rw [joined_cons_cons, List.append_assoc, List.cons_append]
        exact hus _ (hcons rfl hrest) (by simp [Token.followsValue])
  induction v using inductionOn with
  | broken | null | bool | string => exact fun ts hts _ ↦ hcons rfl hts
  | number n =>
    exact fun ts hts hhead ↦ List.isChain_cons.2 ⟨fun u hu _ ↦ hhead u hu, hts⟩
  | array items closed ih =>
    intro ts hts _
    rw [tokens_array, List.cons_append, List.append_assoc, List.singleton_append]
    refine hcons rfl (hjoined (fun us hus ↦ ?_) (hcons rfl hts) (by simp [Token.followsValue]))
    obtain ⟨v, hv, rfl⟩ := List.mem_map.1 hus
    exact ih v hv
  | object members closed ih =>
    intro ts hts _
    rw [tokens_object, List.cons_append, List.append_assoc, List.singleton_append]
    refine hcons rfl (hjoined (fun us hus ↦ ?_) (hcons rfl hts) (by simp [Token.followsValue]))
    obtain ⟨m, hm, rfl⟩ := List.mem_map.1 hus
    exact fun ts hts hhead ↦ hcons rfl (hcons rfl (ih m hm ts hts hhead))

/-! ## What is read -/

/-- The tokens that were gone through before, when these frames are open. -/
def opened : List Frame → List Token
  | [] => []
  | .array before :: outer => opened outer ++ .openArray :: listed (before.reverse.map tokens)
  | .object before key :: outer =>
    opened outer ++ .openObject ::
      (listed (before.reverse.map tokensOfMember) ++ [.string key, .colon])

/-- What is abandoned has a gap. -/
theorem isComplete_abandon {stack : List Frame} {v : Value}
    (h : (abandon stack v).isComplete = true) : stack = [] ∧ v.isComplete = true := by
  induction stack generalizing v with
  | nil => exact ⟨rfl, h⟩
  | cons frame outer ih =>
    cases frame with
    | array before => exact absurd (isComplete_array_iff.1 (ih h).2).1 (by simp)
    | object before key => exact absurd (isComplete_object_iff.1 (ih h).2).1 (by simp)

end Value

open Value

/-- The tokens that were gone through for a value are its tokens, unless the value has a gap. -/
theorem tokens_of_read :
    (∀ stack ts, (readValue stack ts).1.isComplete = true →
      opened stack ++ ts = (readValue stack ts).1.tokens ++ (readValue stack ts).2) ∧
    (∀ stack before ts, (readKey stack before ts).1.isComplete = true →
      opened stack ++ .openObject :: (listed (before.reverse.map tokensOfMember) ++ ts) =
        (readKey stack before ts).1.tokens ++ (readKey stack before ts).2) ∧
    ∀ stack v ts, (readOn stack v ts).1.isComplete = true →
      opened stack ++ (v.tokens ++ ts) = (readOn stack v ts).1.tokens ++ (readOn stack v ts).2 := by
  apply readValue.mutual_induct
  -- a value begins
  case case1 =>
    intro stack h
    cases (isComplete_abandon h).2
  case case2 | case6 | case8 =>
    intro stack ts ih
    rw [readValue]
    exact ih
  case case3 | case4 | case5 =>
    intro stack _ ts ih
    rw [readValue]
    exact ih
  case case7 =>
    intro stack ts hne ih
    rw [readValue]
    · simpa [opened, listed] using ih
    · exact hne
  case case9 =>
    intro stack ts hne ih
    rw [readValue]
    · simpa [listed] using ih
    · exact hne
  case case10 =>
    intro stack t ts hnull hbool hnumber hstring harray harray' hobject hobject' h
    rw [readValue] at h
    · cases (isComplete_abandon h).2
    all_goals assumption
  -- a key begins
  case case11 =>
    intro stack before key ts ih
    rw [readKey]
    simpa [opened] using ih
  case case12 =>
    intro stack before key ts hne h
    rw [readKey] at h
    · cases (isComplete_abandon h).2
    · exact hne
  case case13 =>
    intro ts stack before hne hne' h
    rw [readKey] at h
    · cases (isComplete_object_iff.1 (isComplete_abandon h).2).1
    · exact hne
    · exact hne'
  -- a value has ended
  case case14 =>
    intro v ts _
    rw [readOn]
    rfl
  case case15 =>
    intro before outer v ts ih
    rw [readOn]
    simpa [opened, listed_concat] using ih
  case case16 =>
    intro before outer v ts ih
    rw [readOn]
    simpa [opened, tokens_array, joined_concat] using ih
  case case17 =>
    intro before key outer v ts ih
    rw [readOn]
    simpa [opened, listed_concat, tokensOfMember] using ih
  case case18 =>
    intro before key outer v ts ih
    rw [readOn]
    simpa [opened, tokens_object, joined_concat, tokensOfMember] using ih
  case case19 =>
    intro ts frame outer v h₁ h₂ h₃ h₄ h
    rw [readOn] at h
    · cases (isComplete_abandon h).1
    all_goals assumption

/-! ## What is put together -/

namespace Value

/-- The value is put together from its tokens, wherever it stands. -/
def Rebuilt (v : Value) : Prop :=
  ∀ stack ts, readValue stack (v.tokens ++ ts) = readOn stack v ts

theorem readValue_items (outer : List Frame) {v : Value} {rest : List Value}
    (hv : v.Rebuilt) (hrest : ∀ w ∈ rest, w.Rebuilt) (before : List Value) (ts : List Token) :
    readValue (.array before :: outer)
        (joined ((v :: rest).map tokens) ++ .closeArray :: ts) =
      readOn outer (.array (before.reverse ++ v :: rest) true) ts := by
  induction rest generalizing v before with
  | nil =>
    rw [List.map_singleton, joined, hv, readOn, List.reverse_cons]
  | cons w rest ih =>
    have hw := hrest w List.mem_cons_self
    rw [List.map_cons, List.map_cons, joined_cons_cons, List.append_assoc, hv, List.cons_append,
      readOn, ← List.map_cons, ih hw fun u hu ↦ hrest u (List.mem_cons_of_mem w hu)]
    simp

theorem readKey_members (outer : List Frame) {m : Option String × Value}
    {rest : List (Option String × Value)} (hm : m.2.Rebuilt) (hrest : ∀ n ∈ rest, n.2.Rebuilt)
    (before : List (Option String × Value)) (ts : List Token) :
    readKey outer before (joined ((m :: rest).map tokensOfMember) ++ .closeObject :: ts) =
      readOn outer (.object (before.reverse ++ m :: rest) true) ts := by
  induction rest generalizing m before with
  | nil =>
    rw [List.map_singleton, joined, tokensOfMember, List.cons_append, List.cons_append, readKey,
      hm, readOn, List.reverse_cons]
  | cons n rest ih =>
    have hn := hrest n List.mem_cons_self
    rw [List.map_cons, List.map_cons, joined_cons_cons, tokensOfMember, List.cons_append,
      List.cons_append, List.cons_append, List.cons_append, readKey, List.append_assoc, hm,
      List.cons_append, readOn, ← List.map_cons,
      ih hn fun k hk ↦ hrest k (List.mem_cons_of_mem n hk)]
    simp

/-- No value begins with a closing bracket. -/
theorem exists_tokens_eq_cons (v : Value) : ∃ t ts, v.tokens = t :: ts ∧ t ≠ .closeArray := by
  cases v with
  | array => exact ⟨_, _, tokens_array _ _, by simp⟩
  | object => exact ⟨_, _, tokens_object _ _, by simp⟩
  | _ => exact ⟨_, _, rfl, by simp⟩

theorem exists_joined_eq_cons (t : Token) (ts : List Token) (rest : List (List Token)) :
    ∃ us, joined ((t :: ts) :: rest) = t :: us := by
  cases rest with
  | nil => exact ⟨ts, rfl⟩
  | cons us rest => exact ⟨_, joined_cons_cons _ _ _⟩

theorem rebuilt {v : Value} (h : v.isComplete = true) : v.Rebuilt := by
  induction v using inductionOn with
  | broken => cases h
  | null | bool | number | string => exact fun stack ts ↦ rfl
  | array items closed ih =>
    obtain ⟨rfl, hitems⟩ := isComplete_array_iff.1 h
    have hrebuilt : ∀ v ∈ items, v.Rebuilt := fun v hv ↦ ih v hv (hitems v hv)
    intro stack ts
    rw [tokens_array, List.cons_append, List.append_assoc]
    cases items with
    | nil => rfl
    | cons v rest =>
      obtain ⟨t, us, htokens, hclose⟩ := v.exists_tokens_eq_cons
      obtain ⟨us, hjoined⟩ := exists_joined_eq_cons t us (rest.map tokens)
      rw [← htokens, ← List.map_cons] at hjoined
      have hread := readValue_items stack (hrebuilt v List.mem_cons_self)
        (fun w hw ↦ hrebuilt w (List.mem_cons_of_mem v hw)) [] ts
      rw [List.singleton_append, readValue, hread]
      · rfl
      · rw [hjoined]
        simpa using hclose
  | object members closed ih =>
    obtain ⟨rfl, hmembers⟩ := isComplete_object_iff.1 h
    have hrebuilt : ∀ m ∈ members, m.2.Rebuilt := fun m hm ↦ ih m hm (hmembers m hm)
    intro stack ts
    rw [tokens_object, List.cons_append, List.append_assoc]
    cases members with
    | nil => rfl
    | cons m rest =>
      obtain ⟨us, hjoined⟩ :=
        exists_joined_eq_cons (.string m.1) (.colon :: m.2.tokens) (rest.map tokensOfMember)
      rw [← tokensOfMember, ← List.map_cons] at hjoined
      have hread := readKey_members stack (hrebuilt m List.mem_cons_self)
        (fun n hn ↦ hrebuilt n (List.mem_cons_of_mem m hn)) [] ts
      rw [List.singleton_append, readValue, hread]
      · rfl
      · rw [hjoined]
        simp

/-! ## Documents -/

/-- The text is one of the ways to write the value. -/
def Spelling (v : Value) (text : String) : Prop :=
  v.isComplete = true ∧ Token.Spells v.tokens text.toList

/-- Whether the value ends with a bracket. -/
def isBracketed : Value → Bool
  | array .. | object .. => true
  | _ => false

theorem getLast?_tokens {v : Value} (h : v.isBracketed = true) :
    ∃ t, v.tokens.getLast? = some t ∧ t.isNumber = false := by
  cases v with
  | array items closed =>
    refine ⟨.closeArray, ?_, rfl⟩
    rw [tokens_array, ← List.cons_append, List.getLast?_concat]
  | object members closed =>
    refine ⟨.closeObject, ?_, rfl⟩
    rw [tokens_object, ← List.cons_append, List.getLast?_concat]
  | _ => cases h

theorem isChain_tokens (v : Value) : v.tokens.IsChain Token.Separable := by
  have hchain := v.isChain_tokens_append [] .nil (by simp)
  rwa [List.append_nil] at hchain

/-- A value without a gap has only tokens that can be spelled. -/
theorem bad_notMem_tokens {v : Value} (h : v.isComplete = true) : Token.bad ∉ v.tokens := by
  have hfixed : ∀ t : Token, t.isFixed = true → t ≠ .bad := by
    rintro t ht rfl
    cases ht
  have hgood : ∀ t ∈ v.tokens, t ≠ .bad := by
    induction v using inductionOn with
    | broken => cases h
    | null | bool | number | string => simp [tokens]
    | array items closed ih =>
      have hitems := (isComplete_array_iff.1 h).2
      exact forall_mem_tokens_array hfixed closed fun v hv ↦ ih v hv (hitems v hv)
    | object members closed ih =>
      have hmembers := (isComplete_object_iff.1 h).2
      exact forall_mem_tokens_object hfixed closed (by simp) fun m hm ↦ ih m hm (hmembers m hm)
  exact fun hbad ↦ hgood _ hbad rfl

/-- A text with the tokens of a value writes it. -/
theorem Spelling.of_ofChars_eq {v : Value} {text : String} (h : v.isComplete = true)
    (htokens : Token.ofChars text.toList = v.tokens) : v.Spelling text := by
  have hbad : Token.bad ∉ Token.ofChars text.toList := by
    rw [htokens]
    exact bad_notMem_tokens h
  refine ⟨h, ?_⟩
  rw [← htokens]
  exact Token.spells_ofChars hbad

end Value

namespace Document

theorem ofTokens_eq (ts : List Token) :
    ofTokens ts = ⟨(readValue [] ts).1, (readValue [] ts).2⟩ := rfl

/-- **The reader accepts just what the grammar derives.** -/
theorem ofText_eq_iff {text : String} {v : Value} (h : v.isComplete = true) :
    ofText text = ⟨v, []⟩ ↔ v.Spelling text := by
  rw [ofText, ofTokens_eq, Document.mk.injEq]
  constructor
  · rintro ⟨hvalue, htrailing⟩
    have htokens := tokens_of_read.1 [] (Token.ofChars text.toList) (by rw [hvalue, h])
    rw [hvalue, htrailing, List.append_nil] at htokens
    exact .of_ofChars_eq h htokens
  · rintro ⟨-, hspells⟩
    have htokens : Token.ofChars text.toList = v.tokens := by
      have hread := hspells.ofChars_append v.isChain_tokens fun _ _ _ ↦ endsNumber_nil
      rwa [List.append_nil, Token.ofChars, List.append_nil] at hread
    have hvalue : readValue [] v.tokens = (v, []) := by
      have hrebuilt := v.rebuilt h [] []
      rwa [List.append_nil, readOn] at hrebuilt
    rw [htokens, hvalue]
    exact ⟨rfl, rfl⟩

/-- What stands behind a value with brackets is left over. -/
theorem ofText_append {text more : String} {v : Value} (h : v.Spelling text)
    (hbracket : v.isBracketed = true) :
    ofText (text ++ more) = ⟨v, Token.ofChars more.toList⟩ := by
  obtain ⟨hcomplete, hspells⟩ := h
  obtain ⟨t, hlast, hnumber⟩ := getLast?_tokens hbracket
  have htokens : Token.ofChars (text.toList ++ more.toList) =
      v.tokens ++ Token.ofChars more.toList := by
    refine hspells.ofChars_append v.isChain_tokens fun u hu hunumber ↦ ?_
    rw [hlast] at hu
    obtain rfl := Option.some.inj hu
    rw [hnumber] at hunumber
    cases hunumber
  rw [ofText, String.toList_append, htokens, ofTokens_eq, v.rebuilt hcomplete, readOn]

end Document

/-! ## Writing -/

namespace Value

/-- The values that are made to be written. -/
inductive Plain : Value → Prop
  | null : Plain null
  | bool (b : Bool) : Plain (bool b)
  | nat (n : Nat) : Plain (ofNat n)
  | string (text : String) : Plain (ofString text)
  | list {items : List Value} (h : ∀ v ∈ items, Plain v) : Plain (ofList items)
  | members {ms : List (String × Value)} (h : ∀ m ∈ ms, Plain m.2) : Plain (ofMembers ms)

theorem Plain.isComplete {v : Value} (h : v.Plain) : v.isComplete = true := by
  induction h with
  | null | bool | nat | string => rfl
  | list _ ih => exact isComplete_array_iff.2 ⟨rfl, ih⟩
  | members _ ih => exact isComplete_object_iff.2 ⟨rfl, List.forall_mem_map.2 ih⟩

/-- **A plain value is written in one of its spellings.** -/
theorem Plain.spelling {v : Value} (h : v.Plain) : v.Spelling v.toText := by
  have hfixed : ∀ t : Token, t.isFixed = true → t.Spelling t.toChars := fun t ht ↦ .fixed ht
  have htokens : ∀ t ∈ v.tokens, t.Spelling t.toChars := by
    induction h with
    | null | bool => simpa [tokens] using hfixed _ rfl
    | nat n => simpa [tokens, ofNat] using Token.spelling_ofNat n
    | string text => simpa [tokens, ofString] using Token.spelling_string text
    | list _ ih => exact forall_mem_tokens_array hfixed true ih
    | members _ ih =>
      exact forall_mem_tokens_object hfixed true
        (List.forall_mem_map.2 fun m _ ↦ Token.spelling_string m.1) (List.forall_mem_map.2 ih)
  refine ⟨h.isComplete, ?_⟩
  rw [toText, String.toList_ofList]
  exact Token.spells_flatMap htokens

end Value

namespace Document

/-- A text that spells a value is read as the value. -/
theorem read_of_spelling {α : Type} (reader : Value → Except ReadError α) {text : String}
    {v : Value} (h : v.Spelling text) : read reader text = reader v := by
  rw [read, (ofText_eq_iff h.1).2 h]
  show reader v >>= _ = _
  cases reader v <;> rfl

/-- **A written document is read as its value.** -/
theorem read_toText {α : Type} {v : Value} (h : v.Plain) (reader : Value → Except ReadError α) :
    read reader v.toText = reader v := read_of_spelling reader h.spelling

end Document

end LabelAutomaton.Json
