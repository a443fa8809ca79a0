import LabelAutomaton.Callback
import LabelAutomaton.SortedMap

/-!
# Transition graphs

A `Graph` maps the name of each state to what is known about it: its transitions, its callbacks
and whether it accepts. States exist from the first path that begins or ends at them, and so every
target of a transition is itself a state of the graph.

The operations are `addPath`, `addCallback` and `accept`; each has a lemma that says what it does
to the lookups `target?`, `callbacks`, `isAccepting` and `contains`.
-/

set_option autoImplicit false

namespace LabelAutomaton

/-- What a graph knows about one state. -/
structure StateRecord where
  /-- The target of each label that leaves the state. -/
  transitions : SortedMap StateName
  /-- What runs when the state is entered, in this order. -/
  callbacks : List Callback
  /-- Whether a run may finish in the state. -/
  accepting : Bool

namespace StateRecord

/-- A state of which nothing is known but its name. -/
def bare : StateRecord := ⟨SortedMap.empty, [], false⟩

instance : Inhabited StateRecord := ⟨bare⟩

end StateRecord

/-- States with their transitions, callbacks and acceptance. -/
structure Graph where
  /-- The states by name. -/
  states : SortedMap StateRecord
  /-- Every transition leads to a state. -/
  closed : ∀ name record label target, states.find? name = some record →
    record.transitions.find? label = some target → states.contains target = true

namespace Graph

/-- The graph without states. -/
def empty : Graph := ⟨SortedMap.empty, fun _ _ _ _ h ↦ by simp at h⟩

/-- Whether there is a state of this name. -/
def contains (g : Graph) (name : StateName) : Bool := g.states.contains name

/-- The number of states. -/
def size (g : Graph) : Nat := g.states.size

/-- Where the label leads from the state. -/
def target? (g : Graph) (source : StateName) (label : Label) : Option StateName :=
  (g.states.find? source).bind fun record ↦ record.transitions.find? label

/-- The callbacks of the state; an unknown state has none. -/
def callbacks (g : Graph) (name : StateName) : List Callback :=
  match g.states.find? name with
  | some record => record.callbacks
  | none => []

/-- Whether a run may finish in the state; not so in an unknown one. -/
def isAccepting (g : Graph) (name : StateName) : Bool :=
  match g.states.find? name with
  | some record => record.accepting
  | none => false

theorem contains_target {g : Graph} {source : StateName} {label : Label} {target : StateName}
    (h : g.target? source label = some target) : g.contains target = true := by
  obtain ⟨record, hrecord, htarget⟩ := Option.bind_eq_some_iff.1 h
  exact g.closed source record label target hrecord htarget

/-- **A graph is determined by its lookups.** -/
theorem ext_lookups {g g' : Graph} (hcontains : ∀ name, g.contains name = g'.contains name)
    (htarget : ∀ source label, g.target? source label = g'.target? source label)
    (hcallbacks : ∀ name, g.callbacks name = g'.callbacks name)
    (haccepting : ∀ name, g.isAccepting name = g'.isAccepting name) : g = g' := by
  have hstates : g.states = g'.states := by
    refine SortedMap.ext_find? fun name ↦ ?_
    have hsome := hcontains name
    have htargets := htarget name
    have hcallbacks := hcallbacks name
    have haccepting := haccepting name
    simp only [contains, SortedMap.contains, target?, callbacks, isAccepting] at *
    cases hrecord : g.states.find? name with
    | none => cases hrecord' : g'.states.find? name <;> simp_all
    | some record =>
      cases hrecord' : g'.states.find? name with
      | none => simp_all
      | some record' =>
        simp only [hrecord, hrecord', Option.bind_some] at htargets hcallbacks haccepting
        cases record
        cases record'
        cases SortedMap.ext_find? htargets
        cases hcallbacks
        cases haccepting
        rfl
  cases g
  cases g'
  cases hstates
  rfl

/-! ## Paths -/

/-- Let `label` lead from `source` to `target`, in place of where it led before. Both states exist
afterwards. -/
def addPath (g : Graph) (source : StateName) (label : Label) (target : StateName) : Graph where
  states :=
    (g.states.alter target (·.getD .bare)).alter source fun record? ↦
      let record := record?.getD .bare
      { record with transitions := record.transitions.insert label target }
  closed := by
    intro name record label' target' hrecord htarget
    rw [SortedMap.contains_alter, SortedMap.contains_alter]
    simp only [SortedMap.find?_alter] at hrecord
    have old : ∀ record', (g.states.find? name).getD .bare = record' →
        record'.transitions.find? label' = some target' → g.states.contains target' = true := by
      intro record' hrecord' htarget'
      cases hfind : g.states.find? name with
      | none => simp [hfind, ← hrecord', StateRecord.bare] at htarget'
      | some r =>
        rw [hfind, Option.getD_some] at hrecord'
        exact g.closed name r label' target' hfind (hrecord' ▸ htarget')
    split at hrecord
    · rename_i hname
      subst hname
      obtain rfl := Option.some.inj hrecord
      rw [SortedMap.find?_insert] at htarget
      split at htarget
      · obtain rfl := Option.some.inj htarget
        simp
      · rw [Bool.or_eq_true, Bool.or_eq_true]
        refine Or.inr (Or.inr (old _ rfl ?_))
        rw [← htarget]
        split <;> simp_all
    · split at hrecord
      · rename_i hname
        subst hname
        obtain rfl := Option.some.inj hrecord
        simp [old _ rfl htarget]
      · simp [g.closed name record label' target' hrecord htarget]

theorem target?_addPath (g : Graph) (source : StateName) (label : Label) (target : StateName)
    (source' : StateName) (label' : Label) :
    (g.addPath source label target).target? source' label' =
      if source' = source ∧ label' = label then some target else g.target? source' label' := by
  simp only [target?, addPath, SortedMap.find?_alter]
  by_cases hs : source' = source
  · subst hs
    simp only [if_true, Option.bind_some, SortedMap.find?_insert, true_and]
    split
    · rfl
    · cases h : g.states.find? source' <;> split <;> simp_all [StateRecord.bare]
  · simp only [hs, if_false, false_and]
    split
    · rename_i ht
      subst ht
      cases h : g.states.find? source' <;> simp [StateRecord.bare]
    · rfl

theorem contains_addPath (g : Graph) (source : StateName) (label : Label) (target : StateName)
    (name : StateName) :
    (g.addPath source label target).contains name =
      (decide (name = source) || (decide (name = target) || g.contains name)) := by
  simp only [contains, addPath, SortedMap.contains_alter]

theorem callbacks_addPath (g : Graph) (source : StateName) (label : Label) (target : StateName)
    (name : StateName) :
    (g.addPath source label target).callbacks name = g.callbacks name := by
  simp only [callbacks, addPath, SortedMap.find?_alter]
  cases h : g.states.find? name <;> by_cases hs : name = source <;>
    by_cases ht : name = target <;> by_cases hst : source = target <;>
    simp_all [StateRecord.bare]

theorem isAccepting_addPath (g : Graph) (source : StateName) (label : Label) (target : StateName)
    (name : StateName) :
    (g.addPath source label target).isAccepting name = g.isAccepting name := by
  simp only [isAccepting, addPath, SortedMap.find?_alter]
  cases h : g.states.find? name <;> by_cases hs : name = source <;>
    by_cases ht : name = target <;> by_cases hst : source = target <;>
    simp_all [StateRecord.bare]

/-! ## Callbacks and acceptance -/

/-- Change what is known about a state, but not its transitions. -/
def update? (g : Graph) (name : StateName) (f : StateRecord → StateRecord)
    (hf : ∀ record, (f record).transitions = record.transitions) : Option Graph :=
  match hfind : g.states.find? name with
  | none => none
  | some record =>
    some
      { states := g.states.alter name fun _ ↦ f record
        closed := by
          intro name' record' label target hrecord htarget
          rw [SortedMap.contains_alter, Bool.or_eq_true]
          rw [SortedMap.find?_alter] at hrecord
          split at hrecord
          · obtain rfl := Option.some.inj hrecord
            exact Or.inr (g.closed name record label target hfind (by rw [← hf, htarget]))
          · exact Or.inr (g.closed name' record' label target hrecord htarget) }

/-- Add a callback behind those that the state has, if it exists. -/
def addCallback? (g : Graph) (name : StateName) (callback : Callback) : Option Graph :=
  g.update? name (fun record ↦ { record with callbacks := record.callbacks ++ [callback] })
    fun _ ↦ rfl

/-- Let runs finish in the state, if it exists. -/
def accept? (g : Graph) (name : StateName) : Option Graph :=
  g.update? name (fun record ↦ { record with accepting := true }) fun _ ↦ rfl

theorem isSome_update? (g : Graph) (name : StateName) (f : StateRecord → StateRecord)
    (hf : ∀ record, (f record).transitions = record.transitions) :
    (g.update? name f hf).isSome = g.contains name := by
  rw [update?, contains, SortedMap.contains]
  split <;> simp_all

theorem find?_of_update? {g g' : Graph} {name : StateName} {f : StateRecord → StateRecord}
    {hf : ∀ record, (f record).transitions = record.transitions}
    (h : g.update? name f hf = some g') (name' : StateName) :
    g'.states.find? name' =
      if name' = name then (g.states.find? name).map f else g.states.find? name' := by
  rw [update?] at h
  split at h
  · simp at h
  · rename_i record hfind
    obtain rfl := Option.some.inj h
    rw [SortedMap.find?_alter, hfind]
    rfl

/-! An update leaves the transitions and the states as they are, and so does one that fails. -/

section Update

variable (g : Graph) (name : StateName) (f : StateRecord → StateRecord)
  (hf : ∀ record, (f record).transitions = record.transitions)

theorem target?_getD_update? (source : StateName) (label : Label) :
    ((g.update? name f hf).getD g).target? source label = g.target? source label := by
  cases h : g.update? name f hf with
  | none => rfl
  | some g' =>
    rw [Option.getD_some, target?, target?, find?_of_update? h]
    split
    · rename_i hname
      subst hname
      cases g.states.find? source with
      | none => rfl
      | some record => simp [hf]
    · rfl

theorem contains_getD_update? (name' : StateName) :
    ((g.update? name f hf).getD g).contains name' = g.contains name' := by
  cases h : g.update? name f hf with
  | none => rfl
  | some g' =>
    rw [Option.getD_some, contains, contains, SortedMap.contains, SortedMap.contains,
      find?_of_update? h]
    split
    · rename_i hname
      subst hname
      rw [Option.isSome_map]
    · rfl

end Update

theorem isSome_addCallback? (g : Graph) (name : StateName) (callback : Callback) :
    (g.addCallback? name callback).isSome = g.contains name :=
  isSome_update? g name _ _

theorem isSome_accept? (g : Graph) (name : StateName) :
    (g.accept? name).isSome = g.contains name :=
  isSome_update? g name _ _

theorem isAccepting_getD_addCallback? (g : Graph) (name : StateName) (callback : Callback)
    (name' : StateName) :
    ((g.addCallback? name callback).getD g).isAccepting name' = g.isAccepting name' := by
  cases h : g.addCallback? name callback with
  | none => rfl
  | some g' =>
    simp only [Option.getD_some, isAccepting, find?_of_update? h]
    by_cases hname : name' = name
    · subst hname
      rw [if_pos rfl]
      cases g.states.find? name' <;> rfl
    · rw [if_neg hname]

theorem isAccepting_getD_accept? (g : Graph) (name name' : StateName) :
    ((g.accept? name).getD g).isAccepting name' =
      (decide (name' = name) && g.contains name || g.isAccepting name') := by
  rw [← isSome_accept?]
  cases h : g.accept? name with
  | none => simp
  | some g' =>
    have hcontains : g.contains name = true := by
      rw [← isSome_accept?, h]
      rfl
    simp only [Option.getD_some, isAccepting, find?_of_update? h]
    by_cases hname : name' = name
    · subst hname
      rw [contains, SortedMap.contains] at hcontains
      obtain ⟨record, hrecord⟩ := Option.isSome_iff_exists.1 hcontains
      simp [hrecord]
    · simp [hname]

theorem callbacks_getD_addCallback? (g : Graph) (name : StateName) (callback : Callback)
    (name' : StateName) :
    ((g.addCallback? name callback).getD g).callbacks name' =
      g.callbacks name' ++ if name' = name ∧ g.contains name then [callback] else [] := by
  rw [← isSome_addCallback? g name callback]
  cases h : g.addCallback? name callback with
  | none => simp
  | some g' =>
    have hcontains : g.contains name = true := by
      rw [← isSome_addCallback? g name callback, h]
      rfl
    simp only [Option.getD_some, callbacks, find?_of_update? h]
    by_cases hname : name' = name
    · subst hname
      rw [contains, SortedMap.contains] at hcontains
      obtain ⟨record, hrecord⟩ := Option.isSome_iff_exists.1 hcontains
      simp [hrecord]
    · simp [hname]

theorem callbacks_getD_accept? (g : Graph) (name name' : StateName) :
    ((g.accept? name).getD g).callbacks name' = g.callbacks name' := by
  cases h : g.accept? name with
  | none => rfl
  | some g' =>
    simp only [Option.getD_some, callbacks, find?_of_update? h]
    by_cases hname : name' = name
    · subst hname
      rw [if_pos rfl]
      cases g.states.find? name' <;> rfl
    · rw [if_neg hname]

end Graph

end LabelAutomaton
