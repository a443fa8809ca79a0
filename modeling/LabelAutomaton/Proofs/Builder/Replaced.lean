import LabelAutomaton.Proofs.Builder.Described

/-!
# No path is replaced in silence

A path that leads a label elsewhere than the last path for it did takes that one's place, and says
so. `Declaration.Latest` says of a target that it is the one that was given last;
`Builder.events_declare_path` reads off it what the next path reports. So nothing was reported at
the end just if no label was led to two states, which is to say that the table still shows every
path that was declared (`Builder.replacements_are_reported`).
-/

set_option autoImplicit false

namespace LabelAutomaton

open Automaton

namespace Declaration

/-- The last path for the label leads to this state. -/
def Latest (ds : List Declaration) (source : StateName) (label : Label) (target : StateName) :
    Prop :=
  ∃ before after, ds = before ++ .path source label target :: after ∧
    ∀ target', .path source label target' ∉ after

/-- Paths for one label lead to one state. -/
def Unanimous (ds : List Declaration) : Prop :=
  ∀ source label target target', .path source label target ∈ ds →
    .path source label target' ∈ ds → target = target'

theorem leads?_eq_some_iff {d : Declaration} {source : StateName} {label : Label}
    {target : StateName} :
    d.leads? source label = some target ↔ d = .path source label target := by
  cases d with
  | path source' label' target' =>
    simp only [leads?, path.injEq]
    split <;> simp_all [eq_comm]
  | onEntry | accept => simp [leads?]

theorem leads?_eq_none_iff {d : Declaration} {source : StateName} {label : Label} :
    d.leads? source label = none ↔ ∀ target, d ≠ .path source label target := by
  simp only [Option.eq_none_iff_forall_ne_some, ne_eq, leads?_eq_some_iff]

variable {ds : List Declaration} {source : StateName} {label : Label} {target : StateName}

theorem latest_iff :
    Latest ds source label target ↔ (ofDeclarations ds).target? source label = some target := by
  rw [ofDeclarations, List.findSome?_eq_some_iff]
  constructor
  · rintro ⟨before, after, rfl, hafter⟩
    refine ⟨after.reverse, _, before.reverse, by simp, leads?_eq_some_iff.2 rfl, fun d hd ↦ ?_⟩
    rw [leads?_eq_none_iff]
    rintro target' rfl
    exact hafter target' (List.mem_reverse.1 hd)
  · rintro ⟨after, d, before, hds, hd, hafter⟩
    obtain rfl := leads?_eq_some_iff.1 hd
    refine ⟨before.reverse, after.reverse, ?_, fun target' hmem ↦ ?_⟩
    · rw [← List.reverse_reverse ds, hds]
      simp
    · exact leads?_eq_none_iff.1 (hafter _ (List.mem_reverse.1 hmem)) target' rfl

theorem Latest.mem (h : Latest ds source label target) : .path source label target ∈ ds := by
  obtain ⟨before, after, rfl, -⟩ := h
  simp

theorem Latest.eq {target' : StateName} (h : Latest ds source label target)
    (h' : Latest ds source label target') : target = target' :=
  Option.some.inj ((latest_iff.1 h).symm.trans (latest_iff.1 h'))

/-- Where there is a path, there is a last one. -/
theorem exists_latest (h : .path source label target ∈ ds) :
    ∃ target', Latest ds source label target' := by
  simp only [latest_iff, exists_target?_iff, List.mem_filterMap]
  exact ⟨_, h, rfl⟩

/-- Paths for one label lead to one state just if every path is the last in its place. -/
theorem unanimous_iff_latest :
    Unanimous ds ↔ ∀ source label target, .path source label target ∈ ds →
      Latest ds source label target := by
  constructor
  · intro h source label target hmem
    obtain ⟨target', hlatest⟩ := exists_latest hmem
    obtain rfl := h source label target target' hmem hlatest.mem
    exact hlatest
  · intro h source label target target' hmem hmem'
    exact (h _ _ _ hmem).eq (h _ _ _ hmem')

/-- One more path, at the end, must lead where the last one did. -/
theorem unanimous_concat_path :
    Unanimous (ds ++ [.path source label target]) ↔
      Unanimous ds ∧ ∀ previous, Latest ds source label previous → previous = target := by
  constructor
  · intro h
    refine ⟨fun _ _ _ _ hmem hmem' ↦ ?_, fun previous hlatest ↦ ?_⟩
    · exact h _ _ _ _ (List.mem_append_left _ hmem) (List.mem_append_left _ hmem')
    · exact h _ _ _ _ (List.mem_append_left _ hlatest.mem) (by simp)
  · rintro ⟨h, hlast⟩
    -- a path before the last leads where the last path before the new one does
    have hold : ∀ target', .path source label target' ∈ ds → target' = target := by
      intro target' hmem
      exact hlast target' (unanimous_iff_latest.1 h _ _ _ hmem)
    intro source' label' t t' ht ht'
    simp only [List.mem_append, List.mem_singleton, path.injEq] at ht ht'
    rcases ht with ht | ⟨rfl, rfl, rfl⟩ <;> rcases ht' with ht' | ht'
    · exact h _ _ _ _ ht ht'
    · obtain ⟨rfl, rfl, rfl⟩ := ht'
      exact hold t ht
    · exact (hold t' ht').symm
    · exact ht'.2.2.symm

end Declaration

/-- The transitions shown are those of the graph. -/
theorem Graph.mem_edges_describe_iff {g : Graph} {source : StateName} {label : Label}
    {target : StateName} :
    (source, label, target) ∈ g.describe.edges ↔ g.target? source label = some target := by
  simp only [Description.edges, List.mem_flatMap, List.mem_map, Prod.exists, Prod.mk.injEq]
  constructor
  · rintro ⟨s, hs, _, _, hentry, rfl, rfl, rfl⟩
    exact (mem_transitions_describe_iff hs).1 hentry
  · intro h
    obtain ⟨record, hrecord, -⟩ := Option.bind_eq_some_iff.1 h
    have hs : record.describe source ∈ g.describe.states :=
      g.mem_states_describe_iff.2 ⟨record, hrecord, rfl⟩
    exact ⟨_, hs, label, target, (mem_transitions_describe_iff hs).2 h, rfl, rfl, rfl⟩

namespace Builder

open Declaration

theorem reports_append (b : Builder) (ds ds' : List Declaration) :
    b.reports (ds ++ ds') = b.reports ds ++ (b.declareAll ds).reports ds' := by
  induction ds generalizing b with
  | nil => rfl
  | cons d rest ih => rw [List.cons_append, reports, ih, reports, List.append_assoc]; rfl

/-- Only paths report something. -/
theorem events_declare_of_subject? (b : Builder) {d : Declaration} {state : StateName}
    (h : d.subject? = some state) : (b.declare d).events = [] := by
  have hnone (graph? : Option Graph) (state : StateName) :
      (b.withGraph? state graph?).events = [] := by cases graph? <;> rfl
  cases d with
  | path => cases h
  | onEntry | accept => exact hnone _ _

variable (config : Config) (ds : List Declaration)

theorem target?_declareAll_iff {source : StateName} {label : Label} {target : StateName} :
    ((empty config).declareAll ds).graph.target? source label = some target ↔
      Latest ds source label target := by
  rw [latest_iff, (describes_declareAll config ds).target?]

/-- What a path reports: the target of the last path for the label, if it was another. -/
theorem events_declare_path (source : StateName) (label : Label) (target : StateName) :
    let events := (((empty config).declareAll ds).declare (.path source label target)).events
    (∀ previous, Latest ds source label previous → previous ≠ target →
      events = [.pathReplaced source label target previous]) ∧
    ((∀ previous, Latest ds source label previous → previous = target) → events = []) := by
  intro events
  have hevents : events = ((empty config).declareAll ds).replacement source label target := rfl
  rw [hevents, replacement]
  refine ⟨fun previous hlatest hne ↦ ?_, fun hsame ↦ ?_⟩
  · rw [(target?_declareAll_iff config ds).2 hlatest]
    exact if_neg hne
  · split
    · rename_i previous hprevious
      exact if_pos (hsame previous ((target?_declareAll_iff config ds).1 hprevious))
    · rfl

theorem level_of_mem_reports (b : Builder) {e : Event} (h : e ∈ b.reports ds) :
    e.level = .debug := by
  induction ds generalizing b with
  | nil => cases h
  | cons d rest ih =>
    rcases List.mem_append.1 h with h | h
    · cases d with
      | path source label target =>
        change e ∈ b.replacement source label target at h
        rw [replacement] at h
        split at h
        · split at h
          · cases h
          · obtain rfl := List.mem_singleton.1 h
            rfl
        · cases h
      | onEntry | accept =>
        rw [events_declare_of_subject? b rfl] at h
        cases h
    · exact ih _ h

/-- Nothing is reported just if no label is led to two states. -/
theorem reports_eq_nil_iff : (empty config).reports ds = [] ↔ Unanimous ds := by
  induction ds using List.reverseRecOn with
  | nil => simp [reports, Unanimous]
  | append_singleton ds d ih =>
    rw [reports_append, List.append_eq_nil_iff, ih]
    show _ ∧ (((empty config).declareAll ds).declare d).events ++ [] = [] ↔ _
    rw [List.append_nil]
    cases d with
    | path source label target =>
      obtain ⟨hother, hsame⟩ := events_declare_path config ds source label target
      rw [unanimous_concat_path]
      refine and_congr_right fun _ ↦ ⟨fun hnil previous hlatest ↦ ?_, hsame⟩
      by_contra hne
      rw [hother previous hlatest hne] at hnil
      cases hnil
    | onEntry | accept =>
      rw [events_declare_of_subject? _ rfl]
      simp [Unanimous]

/-- **No path is replaced in silence.** Whatever was declared before, a path reports the target that
its label had last, if that was another, and nothing else. So nothing at all was reported just if
the table shows every path, that is, if paths for one label lead to one state. -/
theorem replacements_are_reported :
    (∀ before source label target,
      let events := (((empty config).declareAll before).declare (.path source label target)).events
      (∀ previous, Latest before source label previous → previous ≠ target →
        events = [.pathReplaced source label target previous] ∧
        events.map (fun e ↦ (e.level, e.message)) = [(.debug,
          s!"Path '{source}' --{label}--> '{target}' replaced previous target '{previous}'")]) ∧
      ((¬∃ previous, Latest before source label previous ∧ previous ≠ target) → events = [])) ∧
    (∀ e ∈ (empty config).reports ds, e.level = .debug) ∧
    ((empty config).reports ds = [] ↔ ∀ source label target, .path source label target ∈ ds →
      (source, label, target) ∈ ((empty config).declareAll ds).graph.describe.edges) ∧
    ((empty config).reports ds = [] ↔ Unanimous ds) := by
  refine ⟨fun before source label target ↦ ⟨fun previous hlatest hne ↦ ?_, fun hnone ↦ ?_⟩,
    fun e ↦ level_of_mem_reports ds _, ?_, reports_eq_nil_iff config ds⟩
  · have hevents := (events_declare_path config before source label target).1 previous hlatest hne
    exact ⟨hevents, by rw [hevents]; rfl⟩
  · refine (events_declare_path config before source label target).2 fun previous hlatest ↦ ?_
    by_contra hne
    exact hnone ⟨previous, hlatest, hne⟩
  · rw [reports_eq_nil_iff, unanimous_iff_latest]
    simp only [Graph.mem_edges_describe_iff, target?_declareAll_iff]

/-- A label that is led elsewhere and back again, beside one that is not. -/
def wavering : List Declaration :=
  [.path "a" "x" "b", .path "a" "x" "c", .path "a" "x" "b", .path "b" "x" "b", .path "b" "x" "b"]

theorem wavering_reports :
    let b := empty .standard
    Latest (wavering.take 2) "a" "x" "c" ∧ "c" ≠ "b" ∧
      ((b.declareAll (wavering.take 2)).declare (.path "a" "x" "b")).events =
        [.pathReplaced "a" "x" "b" "c"] ∧
      ((b.declareAll (wavering.take 4)).declare (.path "b" "x" "b")).events = [] ∧
      b.reports wavering ≠ [] := by
  intro b
  obtain ⟨hevents, -, htable, -⟩ := replacements_are_reported .standard wavering
  have hlatest : Latest (wavering.take 2) "a" "x" "c" := ⟨wavering.take 1, [], rfl, by simp⟩
  have hsame : ¬∃ previous, Latest (wavering.take 4) "b" "x" previous ∧ previous ≠ "b" := by
    rintro ⟨previous, hprevious, hne⟩
    exact hne (hprevious.eq ⟨wavering.take 3, [], rfl, by simp⟩)
  refine ⟨hlatest, by decide, ((hevents _ "a" "x" "b").1 "c" hlatest (by decide)).1,
    (hevents _ "b" "x" "b").2 hsame, fun hnil ↦ ?_⟩
  -- the table has lost the path to `c`
  have hedge := htable.1 hnil "a" "x" "c" (by simp [wavering])
  rw [Graph.mem_edges_describe_iff, target?_declareAll_iff] at hedge
  have hback : Latest wavering "a" "x" "b" :=
    ⟨wavering.take 2, wavering.drop 3, rfl, by simp [wavering]⟩
  exact absurd (hedge.eq hback) (by decide)

end Builder

end LabelAutomaton
