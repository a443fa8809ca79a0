import LabelAutomaton.Proofs.Builder.Declared

/-!
# What is registered, and what a builder keeps

A callback can be registered on a state from the first path on that creates the state. So the
callbacks of a state are those of the declarations behind that path, in their order:
`Declaration.registered` picks them from the sequence itself, and `Builder.callbacks_declareAll`
finds the same in the graph.

More declarations take little away from a builder. States stay, and so does acceptance; callbacks
are added behind those that a state has. A label leads elsewhere only if a path says so, and the
last path counts. `Graph.GrownBy` says this of two graphs, and `Builder.grownBy_declareAll` of the
graph of a builder before and after declarations.
-/

set_option autoImplicit false

namespace LabelAutomaton

open Automaton

/-! ## Callbacks -/

namespace Declaration

instance (d : Declaration) (state : StateName) : Decidable (d.Creates state) :=
  match d with
  | path source _ target => inferInstanceAs (Decidable (state = source ∨ state = target))
  | onEntry .. | accept .. => inferInstanceAs (Decidable False)

instance (ds : List Declaration) (state : StateName) : Decidable (IsCreated ds state) :=
  inferInstanceAs (Decidable (∃ d ∈ ds, d.Creates state))

/-- The callback that the declaration adds to the state, if the state is there. -/
def adds? (state : StateName) : Declaration → Option Callback
  | onEntry state' callback => if state = state' then some callback else none
  | path .. | accept .. => none

/-- The callbacks that were registered on the state: those of the declarations behind the first
that creates it. -/
def registered (ds : List Declaration) (state : StateName) : List Callback :=
  (ds.dropWhile fun d ↦ ¬d.Creates state).filterMap (adds? state)

/-- What is registered on a state was declared for it. -/
theorem mem_of_mem_registered {ds : List Declaration} {state : StateName} {cb : Callback}
    (h : cb ∈ registered ds state) : .onEntry state cb ∈ ds := by
  obtain ⟨d, hd, hadds⟩ := List.mem_filterMap.1 h
  have hmem : d ∈ ds := (List.dropWhile_suffix _).subset hd
  cases d with
  | path | accept => cases hadds
  | onEntry state' callback =>
    rw [adds?] at hadds
    split at hadds
    · rename_i hstate
      subst hstate
      obtain rfl := Option.some.inj hadds
      exact hmem
    · cases hadds

/-- What creates a state adds nothing to it. -/
theorem adds?_of_creates {d : Declaration} {state : StateName} (h : d.Creates state) :
    d.adds? state = none := by
  cases d with
  | path source label target => rfl
  | onEntry | accept => exact h.elim

/-- One more declaration, at the end, adds its callback if the state was created before. -/
theorem registered_concat (ds : List Declaration) (d : Declaration) (state : StateName) :
    registered (ds ++ [d]) state =
      registered ds state ++ if IsCreated ds state then (d.adds? state).toList else [] := by
  induction ds with
  | nil =>
    have hnot : ¬IsCreated [] state := fun ⟨_, hmem, _⟩ ↦ nomatch hmem
    rw [if_neg hnot]
    by_cases hcreates : d.Creates state
    · simp [registered, hcreates, adds?_of_creates hcreates]
    · simp [registered, hcreates]
  | cons d' rest ih =>
    by_cases hcreates : d'.Creates state
    · have hcreated : IsCreated (d' :: rest) state := ⟨d', List.mem_cons_self, hcreates⟩
      rw [if_pos hcreated]
      cases hadds : d.adds? state <;>
        simp [registered, hcreates, adds?_of_creates hcreates, hadds]
    · have hiff : IsCreated (d' :: rest) state ↔ IsCreated rest state := by
        simp [IsCreated, hcreates]
      simpa [registered, hcreates, hiff] using ih

end Declaration

namespace Builder

theorem callbacks_declare (b : Builder) (d : Declaration) (state : StateName) :
    (b.declare d).builder.graph.callbacks state =
      b.graph.callbacks state ++
        if b.graph.contains state then (d.adds? state).toList else [] := by
  cases d with
  | path source label target => simp [declare, Graph.callbacks_addPath, Declaration.adds?]
  | onEntry state' callback =>
    rw [declare, builder_withGraph?, Graph.callbacks_getD_addCallback?, Declaration.adds?]
    by_cases hstate : state = state'
    · subst hstate
      simp
    · simp [hstate]
  | accept state' =>
    rw [declare, builder_withGraph?, Graph.callbacks_getD_accept?]
    simp [Declaration.adds?]

/-- **The callbacks of a state are those registered on it**, in their order. -/
theorem callbacks_declareAll (config : Config) (ds : List Declaration) (state : StateName) :
    ((empty config).declareAll ds).graph.callbacks state = Declaration.registered ds state := by
  induction ds using List.reverseRecOn with
  | nil => rfl
  | append_singleton ds d ih =>
    have hknown : _ ↔ IsCreated ds state := (describes_declareAll config ds).known state
    rw [declareAll_concat, callbacks_declare, ih, Declaration.registered_concat]
    simp only [hknown]

end Builder

/-! ## What a builder keeps when it grows -/

/-- The second graph is the first with the declarations on top. -/
structure Graph.GrownBy (g : Graph) (ds : List Declaration) (g' : Graph) : Prop where
  /-- The states are the old ones and those that are created. -/
  contains (state : StateName) :
    g'.contains state = true ↔ IsCreated ds state ∨ g.contains state = true
  /-- A label leads where the last path for it says, and where it has led if there is none. -/
  target? (source : StateName) (label : Label) :
    g'.target? source label =
      ((ofDeclarations ds).target? source label).or (g.target? source label)
  /-- What accepts goes on accepting. -/
  isAccepting (state : StateName) (h : g.isAccepting state = true) : g'.isAccepting state = true
  /-- The callbacks of an old state stay as they are, and new ones come behind them. -/
  callbacks (state : StateName) (h : g.contains state = true) :
    g'.callbacks state = g.callbacks state ++ ds.filterMap (Declaration.adds? state)

/-- A label still leads where it has led, if no path says otherwise in the end. -/
theorem Graph.GrownBy.target?_eq_some {g g' : Graph} {ds : List Declaration} (hg : g.GrownBy ds g')
    {source : StateName} {label : Label} {target : StateName}
    (htarget : g.target? source label = some target)
    (hkept : ∀ target', (ofDeclarations ds).target? source label = some target' →
      target' = target) : g'.target? source label = some target := by
  rw [hg.target?, htarget]
  cases hlast : (ofDeclarations ds).target? source label with
  | none => rfl
  | some target' => rw [hkept target' hlast, Option.some_or]

/-- **A builder grows by what is declared.** -/
theorem Builder.grownBy_declareAll (b : Builder) (ds : List Declaration) :
    b.graph.GrownBy ds (b.declareAll ds).graph := by
  induction ds using List.reverseRecOn with
  | nil =>
    refine ⟨fun state ↦ ?_, fun source label ↦ rfl, fun state h ↦ h, fun state _ ↦ ?_⟩
    · have hnot : ¬IsCreated [] state := fun ⟨_, hmem, _⟩ ↦ nomatch hmem
      rw [or_iff_right hnot]
      rfl
    · exact (List.append_nil _).symm
  | append_singleton ds d ih =>
    rw [declareAll_concat]
    refine ⟨fun state ↦ ?_, fun source label ↦ ?_, fun state h ↦ ?_, fun state h ↦ ?_⟩
    · rw [contains_declare, ih.contains, isCreated_concat, or_assoc]
    · rw [target?_declare, ih.target?, target?_concat, Option.or_assoc]
    · exact (isAccepting_declare _ d state).2 (Or.inr (ih.isAccepting state h))
    · have hcontains : (b.declareAll ds).graph.contains state = true :=
        (ih.contains state).2 (Or.inr h)
      rw [callbacks_declare, if_pos hcontains, ih.callbacks state h, List.append_assoc,
        List.filterMap_append]
      cases hadds : d.adds? state <;> simp [hadds]

end LabelAutomaton
