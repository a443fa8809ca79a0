import LabelAutomaton.Description

/-!
# Descriptions as dot text

A graph can be drawn from its dot text: one line for every state, accepting ones with a double
circle, then one line for every transition.

A name or a label may have quotes, backslashes and line breaks in it, or even whole lines of dot
text. It does not break out of its quotes: `Shows` holds of a way to write things from which the
thing, or part of it, can be told, and also where it ends, whatever comes behind. It holds of
characters between quotes, so of quoted texts, so of the lines, and so of lists of lines.
-/

set_option autoImplicit false

namespace LabelAutomaton

/-! ## Writing that can be told apart -/

/-- What is written shows the key, and where it ends. -/
def Shows {α β : Type} (write : α → List Char) (key : α → β) : Prop :=
  ∀ a a' rest rest', write a ++ rest = write a' ++ rest' → key a = key a' ∧ rest = rest'

/-- If items show their keys, so does a list of them, up to a character with which no item
begins. -/
theorem Shows.list {α β : Type} {write : α → List Char} {key : α → β} (h : Shows write key)
    {stop : Char} (hstop : ∀ a, ∃ c cs, write a = c :: cs ∧ c ≠ stop) :
    Shows (fun items ↦ items.flatMap write ++ [stop]) (List.map key) := by
  have hne (a : α) (rest rest' : List Char) : write a ++ rest ≠ stop :: rest' := by
    obtain ⟨c, cs, hwrite, hc⟩ := hstop a
    rw [hwrite]
    exact fun heq ↦ hc (List.cons.inj heq).1
  intro items
  induction items with
  | nil =>
    intro items' rest rest' heq
    cases items' with
    | nil => exact ⟨rfl, (List.cons.inj heq).2⟩
    | cons a' items' =>
      simp only [List.flatMap_cons, List.append_assoc] at heq
      exact absurd heq.symm (hne a' _ _)
  | cons a items ih =>
    intro items' rest rest' heq
    cases items' with
    | nil =>
      simp only [List.flatMap_cons, List.append_assoc] at heq
      exact absurd heq (hne a _ _)
    | cons a' items' =>
      simp only [List.flatMap_cons, List.append_assoc] at heq
      obtain ⟨hkey, hitems⟩ := h a a' _ _ heq
      simp only [← List.append_assoc] at hitems
      obtain ⟨hkeys, hrest⟩ := ih items' rest rest' hitems
      exact ⟨by rw [List.map_cons, List.map_cons, hkey, hkeys], hrest⟩

namespace Description

/-! ## Quoted texts -/

/-- A character between quotes; quotes and backslashes have a backslash in front. -/
def escaped (c : Char) : List Char := if c = '"' ∨ c = '\\' then ['\\', c] else [c]

/-- A text between quotes. -/
def dotQuoted (text : String) : List Char := '"' :: text.toList.flatMap escaped ++ ['"']

theorem shows_escaped : Shows escaped id := by
  intro c c' rest rest' heq
  rw [escaped, escaped] at heq
  -- a plain character is no backslash, so either both have one in front or neither
  split at heq
  · split at heq
    · obtain ⟨hc, hrest⟩ := List.cons.inj (List.cons.inj heq).2
      exact ⟨hc, hrest⟩
    · rename_i hplain
      exact absurd (Or.inr (List.cons.inj heq).1.symm) hplain
  · rename_i hplain
    split at heq
    · exact absurd (Or.inr (List.cons.inj heq).1) hplain
    · exact List.cons.inj heq

/-- The characters with one of them replaced. -/
def replaced (c : Char) (replacement : List Char) (text : List Char) : List Char :=
  text.flatMap fun c' ↦ if c' = c then replacement else [c']

/-- Backslashes can be doubled first and quotes replaced after that. The other way round the
backslashes that come with the quotes would be doubled too, and the quotes would end the text. -/
theorem dotQuoted_eq_replaced (text : String) :
    dotQuoted text =
      '"' :: replaced '"' ['\\', '"'] (replaced '\\' ['\\', '\\'] text.toList) ++ ['"'] := by
  have hescaped (c : Char) : escaped c =
      replaced '"' ['\\', '"'] (if c = '\\' then ['\\', '\\'] else [c]) := by
    by_cases hbackslash : c = '\\'
    · subst hbackslash
      rfl
    · rw [escaped, if_neg hbackslash, replaced, List.flatMap_singleton]
      by_cases hquote : c = '"' <;> simp [hquote, hbackslash]
  rw [dotQuoted, funext hescaped, replaced, replaced, List.flatMap_assoc]
  rfl

example : dotQuoted "say \"hi\"" = "\"say \\\"hi\\\"\"".toList := rfl

/-- A quoted text ends at its last quote. -/
theorem shows_dotQuoted : Shows dotQuoted id := by
  intro text text' rest rest' heq
  have hstop (c : Char) : ∃ c' cs, escaped c = c' :: cs ∧ c' ≠ '"' := by
    rw [escaped]
    split
    · exact ⟨_, _, rfl, by decide⟩
    · rename_i hplain
      exact ⟨_, _, rfl, fun hc ↦ hplain (Or.inl hc)⟩
  obtain ⟨htext, hrest⟩ := shows_escaped.list hstop _ _ _ _ (List.cons.inj heq).2
  rw [List.map_id, List.map_id] at htext
  exact ⟨String.toList_inj.1 htext, hrest⟩

/-! ## The lines and the text -/

/-- The line of a state. -/
def nodeLine (s : StateDescription) : List Char :=
  '\t' :: dotQuoted s.name ++ " [shape=".toList
    ++ (if s.accepting then "doublecircle" else "circle").toList ++ "];\n".toList

theorem shows_shape :
    Shows (fun accepting : Bool ↦ (if accepting then "doublecircle" else "circle").toList) id := by
  rintro (_ | _) (_ | _) rest rest' heq
  · exact ⟨rfl, List.append_cancel_left heq⟩
  · exact absurd (List.cons.inj heq).1 (by decide)
  · exact absurd (List.cons.inj heq).1 (by decide)
  · exact ⟨rfl, List.append_cancel_left heq⟩

theorem shows_nodeLine : Shows nodeLine fun s ↦ (s.name, s.accepting) := by
  intro s s' rest rest' heq
  simp only [nodeLine, List.cons_append, List.append_assoc] at heq
  obtain ⟨hname, heq⟩ := shows_dotQuoted _ _ _ _ (List.cons.inj heq).2
  obtain ⟨haccepting, heq⟩ := shows_shape _ _ _ _ (List.append_cancel_left heq)
  exact ⟨Prod.ext hname haccepting, List.append_cancel_left heq⟩

/-- The line of a transition. -/
def edgeLine : StateName × Label × StateName → List Char
  | (source, label, target) =>
    '\t' :: dotQuoted source ++ " -> ".toList ++ dotQuoted target ++ " [label = ".toList
      ++ dotQuoted label ++ "];\n".toList

theorem shows_edgeLine : Shows edgeLine id := by
  rintro ⟨source, label, target⟩ ⟨source', label', target'⟩ rest rest' heq
  simp only [edgeLine, List.cons_append, List.append_assoc] at heq
  obtain ⟨hsource, heq⟩ := shows_dotQuoted _ _ _ _ (List.cons.inj heq).2
  obtain ⟨htarget, heq⟩ := shows_dotQuoted _ _ _ _ (List.append_cancel_left heq)
  obtain ⟨hlabel, heq⟩ := shows_dotQuoted _ _ _ _ (List.append_cancel_left heq)
  exact ⟨Prod.ext hsource (Prod.ext hlabel htarget), List.append_cancel_left heq⟩

/-- The characters of the dot text. -/
def dotChars (d : Description) : List Char :=
  "digraph dfa \x7b\n\trankdir=LR;\n\n".toList ++ d.states.flatMap nodeLine
    ++ '\n' :: d.edges.flatMap edgeLine ++ "\x7d\n".toList

/-- The dot text of a description. -/
def toDot (d : Description) : String := String.ofList d.dotChars

end Description

end LabelAutomaton
