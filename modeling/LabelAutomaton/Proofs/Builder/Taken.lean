import LabelAutomaton.Proofs.Builder.Registered

/-!
# Which declarations are taken

A declaration about a state is taken when some path before it creates the state, and so is every
path. One that is not taken changes nothing (`Builder.declare_eq_of_refused`). `Builder.taken` picks
the ones that are taken out of a sequence, and tells which states were declared to accept and which
callbacks were registered.
-/

set_option autoImplicit false

namespace LabelAutomaton

open Automaton

namespace Builder

variable (b : Builder) (d : Declaration)

/-- A declaration is taken if the state that it is about exists. -/
theorem isOk_declare : (b.declare d).result.isOk = d.subject?.all b.graph.contains := by
  cases hsubject : d.subject? with
  | none =>
    cases d with
    | path => rfl
    | onEntry | accept => cases hsubject
  | some state =>
    rw [result_declare b d hsubject]
    cases hcontains : b.graph.contains state <;> simp [hcontains, Except.isOk, Except.toBool]

/-- A declaration that is not taken changes nothing and reports nothing. -/
theorem declare_eq_of_refused {state : StateName} (h : d.subject? = some state)
    (hstate : b.graph.contains state = false) :
    b.declare d = ⟨b, .error (.unknownState state), []⟩ := by
  have hnone {graph? : Option Graph} (hisSome : graph?.isSome = b.graph.contains state) :
      b.withGraph? state graph? = ⟨b, .error (.unknownState state), []⟩ := by
    rw [hstate, Option.isSome_eq_false_iff, Option.isNone_iff_eq_none] at hisSome
    rw [hisSome, withGraph?]
  cases d with
  | path => cases h
  | onEntry state' callback =>
    obtain rfl := Option.some.inj h
    exact hnone (Graph.isSome_addCallback? _ _ _)
  | accept state' =>
    obtain rfl := Option.some.inj h
    exact hnone (Graph.isSome_accept? _ _)

/-- The declarations that are taken when they come one after the other. -/
def taken (b : Builder) : List Declaration → List Declaration
  | [] => []
  | d :: rest =>
    (if (b.declare d).result.isOk then [d] else []) ++ (b.declare d).builder.taken rest

theorem taken_concat (ds : List Declaration) :
    b.taken (ds ++ [d]) =
      b.taken ds ++ if ((b.declareAll ds).declare d).result.isOk then [d] else [] := by
  induction ds generalizing b with
  | nil =>
    rw [List.nil_append, taken, taken, taken, List.append_nil, List.nil_append]
    rfl
  | cons d' rest ih =>
    rw [List.cons_append, taken, ih, ← List.append_assoc]
    rfl

/-- A declaration that fails was not taken. -/
theorem of_not_isOk_declare (h : ¬(b.declare d).result.isOk) :
    (b.declare d).builder = b ∧ (b.declare d).events = [] := by
  rw [isOk_declare] at h
  cases hsubject : d.subject? with
  | none => exact absurd (by rw [hsubject]; rfl) h
  | some state =>
    rw [hsubject] at h
    rw [declare_eq_of_refused b d hsubject (Bool.eq_false_iff.2 h)]
    exact ⟨rfl, rfl⟩

/-- The results of declarations that come one after the other. -/
def results (b : Builder) : List Declaration → List (Except BuildError Unit)
  | [] => []
  | d :: rest => (b.declare d).result :: (b.declare d).builder.results rest

/-- **Declarations that fail could be left out**: the others have the same results and reports, and
leave the same builder. -/
theorem declare_taken (ds : List Declaration) :
    b.declareAll (b.taken ds) = b.declareAll ds ∧
      b.results (b.taken ds) = (b.results ds).filter (·.isOk) ∧
        b.reports (b.taken ds) = b.reports ds := by
  induction ds generalizing b with
  | nil => exact ⟨rfl, rfl, rfl⟩
  | cons d rest ih =>
    obtain ⟨hall, hresults, hreports⟩ := ih (b.declare d).builder
    have hcons (ds : List Declaration) :
        b.declareAll (d :: ds) = (b.declare d).builder.declareAll ds := rfl
    rw [taken]
    by_cases hok : (b.declare d).result.isOk
    · rw [if_pos hok, List.singleton_append, hcons, hcons, results, results,
        List.filter_cons_of_pos hok, reports, reports, hall, hresults, hreports]
      exact ⟨rfl, rfl, rfl⟩
    · obtain ⟨hbuilder, hevents⟩ := b.of_not_isOk_declare d hok
      rw [hbuilder] at hall hresults hreports
      rw [if_neg hok, List.nil_append, hcons, results, List.filter_cons_of_neg hok, reports,
        hbuilder, hevents, List.nil_append]
      exact ⟨hall, hresults, hreports⟩

/-- If no declaration fails, all are taken. -/
theorem taken_eq_self {ds : List Declaration} (h : ∀ result ∈ b.results ds, result = .ok ()) :
    b.taken ds = ds := by
  induction ds generalizing b with
  | nil => rfl
  | cons d rest ih =>
    obtain ⟨hfirst, hrest⟩ := List.forall_mem_cons.1 h
    rw [taken, hfirst, ih _ hrest]
    rfl

section Empty

variable (config : Config) (ds : List Declaration)

theorem isOk_declare_iff {state : StateName} (h : d.subject? = some state) :
    (((empty config).declareAll ds).declare d).result.isOk = true ↔ IsCreated ds state := by
  rw [isOk_declare, h]
  exact (describes_declareAll config ds).known state

/-- A state accepts when it was declared to, by a declaration that was taken. -/
theorem accept_mem_taken_iff (state : StateName) :
    .accept state ∈ (empty config).taken ds ↔ (ofDeclarations ds).Accepting state := by
  induction ds using List.reverseRecOn with
  | nil =>
    refine ⟨(nomatch ·), ?_⟩
    rintro ⟨before, after, hds, -⟩
    cases before <;> cases hds
  | append_singleton ds d ih =>
    rw [taken_concat, List.mem_append, ih, accepting_concat, or_comm]
    refine or_congr_left ?_
    constructor
    · intro h
      split at h
      · rename_i hok
        obtain rfl := List.mem_singleton.1 h
        exact ⟨rfl, (isOk_declare_iff _ config ds rfl).1 hok⟩
      · cases h
    · rintro ⟨rfl, hcreated⟩
      rw [if_pos ((isOk_declare_iff _ config ds rfl).2 hcreated)]
      exact List.mem_singleton_self _

/-- The callbacks registered on a state are those of the declarations taken. -/
theorem filterMap_adds?_taken (state : StateName) :
    ((empty config).taken ds).filterMap (Declaration.adds? state) =
      Declaration.registered ds state := by
  induction ds using List.reverseRecOn with
  | nil => rfl
  | append_singleton ds d ih =>
    rw [taken_concat, List.filterMap_append, ih, Declaration.registered_concat]
    congr 1
    cases hadds : d.adds? state with
    | none => split <;> simp [hadds]
    | some callback =>
      -- what adds a callback to the state is about the state
      have hsubject : d.subject? = some state := by
        cases d with
        | path | accept => cases hadds
        | onEntry state' callback' =>
          rw [Declaration.adds?] at hadds
          split at hadds
          · rename_i hstate
            rw [Declaration.subject?, hstate]
          · cases hadds
      simp only [isOk_declare_iff d config ds hsubject]
      split <;> simp [hadds]

end Empty

end Builder

end LabelAutomaton
