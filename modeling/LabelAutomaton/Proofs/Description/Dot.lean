import LabelAutomaton.Description.Dot
import LabelAutomaton.Proofs.Builder.Described
import LabelAutomaton.Proofs.Machine.Lockstep

/-!
# Dot text is unambiguous

The lines of a dot text can be told apart (`Description.shows_nodeLine`,
`Description.shows_edgeLine`), so the whole text shows the states with their acceptance, and the
transitions, all in order. If no two states have one name, the transitions can be given back to
their states. So from the dot text of a builder all can be told that it is meant to show
(`Description.dot_is_unambiguous`).
-/

set_option autoImplicit false

namespace LabelAutomaton

namespace Description

/-! ## The whole text -/

/-- The lines of the states up to an empty line, and those of the transitions up to a brace. -/
def lines (d : Description) : List Char :=
  (d.states.flatMap nodeLine ++ ['\n']) ++ ((d.edges.flatMap edgeLine ++ ['\x7d']) ++ ['\n'])

-- For any `header`: the one that dot texts have is a long literal, which is better not looked into.
theorem append_lines (header : List Char) (d : Description) :
    header ++ d.states.flatMap nodeLine ++ '\n' :: d.edges.flatMap edgeLine ++ "\x7d\n".toList =
      header ++ d.lines := by
  have hend : "\x7d\n".toList = ['\x7d', '\n'] := rfl
  rw [hend, lines]
  simp only [List.append_assoc, List.cons_append, List.nil_append]

/-- A dot text shows the states with their acceptance and the transitions, all in order. -/
theorem of_toDot_eq {d d' : Description} (h : d.toDot = d'.toDot) :
    (d.states.map fun s ↦ (s.name, s.accepting)) = d'.states.map (fun s ↦ (s.name, s.accepting)) ∧
      d.edges = d'.edges := by
  have hnode (s : StateDescription) : ∃ c cs, nodeLine s = c :: cs ∧ c ≠ '\n' :=
    ⟨_, _, rfl, by decide⟩
  have hedge (e : StateName × Label × StateName) : ∃ c cs, edgeLine e = c :: cs ∧ c ≠ '\x7d' :=
    ⟨_, _, rfl, by decide⟩
  have hchars : d.dotChars = d'.dotChars := String.ofList_injective h
  unfold dotChars at hchars
  rw [append_lines, append_lines] at hchars
  have hlines : d.lines = d'.lines := List.append_cancel_left hchars
  obtain ⟨hstates, hrest⟩ := shows_nodeLine.list hnode d.states d'.states _ _ hlines
  obtain ⟨hedges, -⟩ := shows_edgeLine.list hedge d.edges d'.edges _ _ hrest
  rw [List.map_id, List.map_id] at hedges
  exact ⟨hstates, hedges⟩

/-! ## Back to the outline -/

/-- The labels of the transitions that leave the name, with their targets. -/
def leaving (d : Description) (name : StateName) : List (Label × StateName) :=
  (d.edges.filter (·.1 = name)).map (·.2)

theorem leaving_cons (s : StateDescription) (states : List StateDescription) (name : StateName) :
    leaving ⟨s :: states⟩ name =
      (if s.name = name then s.transitions.entries else []) ++ leaving ⟨states⟩ name := by
  have hown : ((s.transitions.entries.map (s.name, ·)).filter (·.1 = name)).map (·.2) =
      if s.name = name then s.transitions.entries else [] := by
    rw [List.filter_map, List.map_map]
    show List.map id (s.transitions.entries.filter fun _ ↦ decide (s.name = name)) = _
    rw [List.map_id]
    by_cases h : s.name = name
    · rw [if_pos h, List.filter_eq_self]
      exact fun _ _ ↦ decide_eq_true h
    · rw [if_neg h, List.filter_eq_nil_iff]
      exact fun _ _ ↦ mt of_decide_eq_true h
  rw [← hown]
  show ((_ ++ edges ⟨states⟩).filter _).map _ = _
  rw [List.filter_append, List.map_append]
  rfl

theorem leaving_eq_nil {states : List StateDescription} {name : StateName}
    (hnone : name ∉ states.map (·.name)) : leaving ⟨states⟩ name = [] := by
  induction states with
  | nil => rfl
  | cons s states ih =>
    rw [List.map_cons, List.mem_cons, not_or] at hnone
    rw [leaving_cons, if_neg (Ne.symm hnone.1), ih hnone.2, List.append_nil]

/-- If no other state has its name, the transitions of a state are those that leave its name. -/
theorem leaving_eq_entries {states : List StateDescription} (hnames : (states.map (·.name)).Nodup)
    {s : StateDescription} (hs : s ∈ states) :
    leaving ⟨states⟩ s.name = s.transitions.entries := by
  induction states with
  | nil => cases hs
  | cons first states ih =>
    rw [List.map_cons, List.nodup_cons] at hnames
    rw [leaving_cons]
    rcases List.mem_cons.1 hs with rfl | hs
    · rw [if_pos rfl, leaving_eq_nil hnames.1, List.append_nil]
    · have hne : first.name ≠ s.name := fun h ↦ hnames.1 (h ▸ List.mem_map_of_mem hs)
      rw [if_neg hne, ih hnames.2 hs, List.nil_append]

/-- What a dot text shows determines the outline, if no two states have one name. -/
theorem outline_eq_of_edges_eq {d d' : Description} (hnames : (d.states.map (·.name)).Nodup)
    (hnames' : (d'.states.map (·.name)).Nodup)
    (hstates : (d.states.map fun s ↦ (s.name, s.accepting)) =
      d'.states.map fun s ↦ (s.name, s.accepting))
    (hedges : d.edges = d'.edges) : d.outline = d'.outline := by
  let written (s : StateName × Bool × SortedMap StateName) := (s.1, s.2.1, s.2.2.entries)
  have hwritten : written.Injective := by
    intro s s' h
    obtain ⟨hname, h⟩ := Prod.mk.inj h
    obtain ⟨haccepting, hentries⟩ := Prod.mk.inj h
    exact Prod.ext hname (Prod.ext haccepting (SortedMap.ext_entries hentries))
  have houtline {d : Description} (hnames : (d.states.map (·.name)).Nodup) :
      d.outline.map written = (d.states.map fun s ↦ (s.name, s.accepting)).map
        fun s ↦ (s.1, s.2, d.leaving s.1) := by
    rw [outline, List.map_map, List.map_map]
    refine List.map_congr_left fun s hs ↦ ?_
    show (_, _, s.transitions.entries) = (_, _, d.leaving s.name)
    rw [leaving_eq_entries hnames hs]
  refine List.map_injective_iff.2 hwritten ?_
  have hleaving (name : StateName) : d.leaving name = d'.leaving name := by
    rw [leaving, leaving, hedges]
  rw [houtline hnames, houtline hnames', hstates, funext hleaving]

/-- **Dot text is unambiguous.** If two descriptions have the same dot text, they list the same
states with the same acceptance and the same transitions, whatever stands in names and labels, and
whether or not the states are sorted or have names of their own. If they are of two builders, they
differ at most in how many callbacks a state has. -/
theorem dot_is_unambiguous :
    (∀ d d' : Description, d.toDot = d'.toDot →
      (d.states.map fun s ↦ (s.name, s.accepting)) =
          d'.states.map (fun s ↦ (s.name, s.accepting)) ∧ d.edges = d'.edges) ∧
    ∀ b b' : Builder, b.graph.describe.toDot = b'.graph.describe.toDot →
      b.graph.describe.outline = b'.graph.describe.outline := by
  refine ⟨fun d d' ↦ of_toDot_eq, fun b b' h ↦ ?_⟩
  obtain ⟨hstates, hedges⟩ := of_toDot_eq h
  exact outline_eq_of_edges_eq b.graph.nodup_names_describe b'.graph.nodup_names_describe
    hstates hedges

/-- One state, named like the rest of one line and the beginning of the next. -/
def forged : Description := ⟨[⟨"a\" [shape=circle];\n\t\"b", false, 0, .empty⟩]⟩

/-- The two states for which it would like to be taken. -/
def genuine : Description := ⟨[⟨"a", false, 0, .empty⟩, ⟨"b", false, 0, .empty⟩]⟩

theorem forged_shows :
    forged.toDot ≠ genuine.toDot ∧
      Builder.quiet.graph.describe.toDot = Builder.complaining.graph.describe.toDot ∧
      Builder.quiet.graph.describe.edges = Builder.complaining.graph.describe.edges ∧
      Builder.quiet.graph.describe.outline = Builder.complaining.graph.describe.outline := by
  obtain ⟨hall, hbuilders⟩ := dot_is_unambiguous
  have hdot : Builder.quiet.graph.describe.toDot = Builder.complaining.graph.describe.toDot := rfl
  refine ⟨fun h ↦ ?_, hdot, (hall _ _ hdot).2, hbuilders _ _ hdot⟩
  have hlength : (1 : Nat) = 2 := congrArg List.length (hall forged genuine h).1
  exact absurd hlength (by decide)

end Description

end LabelAutomaton
