import AthenaAI.Python.Dict
import AthenaAI.Python.Value
import AthenaAI.ToMathlib.List

/-!
# Startup and shutdown

`athenai.core.lifecycle`. `lifespan` has a registry to which components are added while the runtime
is up, and closes them when it goes down.

* `Components` says of the components whether they have `close` or `aclose` and what awaiting it
  comes to. They are told apart by their identity.
* `shutdown` is the loop that closes, and `lifespan` returns what has been closed along with its
  outcome. `closed_shutdown` says what the loop gets to.
* `ClosedInReverse`: every component that was ever registered and can be closed is closed, once, and
  in the reverse of the order in which they were registered.
* `closedInReverse_iff`: this is so exactly if each of them is the one that its name stands for in
  the end, and the names were first registered in the order of the components.
-/

/-- What the components are like. -/
structure Components (C : Type) where
  /-- The outcome of `await component.close()`, if the component has a `close`. -/
  close : C → Option (Except PyExc Unit)
  /-- The outcome of `await component.aclose()`, if it has an `aclose`. -/
  aclose : C → Option (Except PyExc Unit)

namespace Components

variable {C : Type} (components : Components C)

/-- `getattr(component, "close", None) or getattr(component, "aclose", None)`: the outcome of
awaiting the method, if there is one. -/
def closer (component : C) : Option (Except PyExc Unit) :=
  (components.close component).or (components.aclose component)

/-- The component has `close` or `aclose`. -/
def closable (component : C) : Bool := (components.closer component).isSome

/-- The loop that closes the components of the registry, from the last item on: the components whose
method is called, in that order, and how the loop ends. -/
def shutdown : List (PyStr × C) → List C × Except PyExc Unit
  | [] => ([], .ok ())
  | (_, component) :: items =>
    match components.closer component with
    | none => shutdown items
    | some (.ok ()) => (component :: (shutdown items).1, (shutdown items).2)
    | some (.error exc) =>
      -- the error is logged with `str(exc)`, which is outside of any `try`
      match exc.str with
      | .ok _ => (component :: (shutdown items).1, (shutdown items).2)
      | .error e => ([component], .error e)

/-- What is registered, in order: the configuration first, and then what the body registers. -/
def registered (config : C) (registrations : List (PyStr × C)) : List (PyStr × C) :=
  ("config".toList, config) :: registrations

/-- `lifespan`, around a body that registers components and has an outcome of its own: the
components whose method is called, in order, and the outcome. -/
def lifespan (config : C) (registrations : List (PyStr × C)) (body : Except PyExc Unit) :
    List C × Except PyExc Unit :=
  let registry := Dict.ofItems (registered config registrations)
  let (closed, outcome) := components.shutdown registry.items.reverse
  -- an exception in the `finally` replaces that of the body
  (closed, outcome >>= fun () => body)

/-! ## The order of the registrations -/

/-- When a component was registered for the first time. -/
def startedAt [DecidableEq C] (items : List (PyStr × C)) (component : C) : ℕ :=
  (items.map Prod.snd).idxOf component

/-- Every component that was ever registered and can be closed is closed once, those registered
later before those registered earlier. -/
structure ClosedInReverse [DecidableEq C] (config : C) (registrations : List (PyStr × C))
    (body : Except PyExc Unit) : Prop where
  /-- No component is closed twice. -/
  once : (components.lifespan config registrations body).1.Nodup
  /-- Every component is closed. -/
  all : ∀ component, component ∈ (components.lifespan config registrations body).1 ↔
    component ∈ (registered config registrations).map Prod.snd ∧ components.closable component
  /-- They are closed in the reverse order. -/
  reverse : (components.lifespan config registrations body).1.Pairwise fun earlier later =>
    startedAt (registered config registrations) later <
      startedAt (registered config registrations) earlier

/-- The component raises an exception that cannot be logged. -/
def halts (component : C) : Bool :=
  match components.closer component with
  | some (.error exc) => exc.text.isNone
  | _ => false

/-- No component under a name that was registered later raises an exception that cannot be
logged. -/
def Reached (items : List (PyStr × C)) (name : PyStr) : Prop :=
  ∀ name' component, Dict.firstAt items name < Dict.firstAt items name' →
    Dict.lastOf items name' = some component → components.halts component = false

/-- The names stand for the components in the order in which these were registered. -/
structure InOrder [DecidableEq C] (items : List (PyStr × C)) : Prop where
  /-- A component that can be closed is, in the end, the one that a name stands for. -/
  kept : ∀ component ∈ items.map Prod.snd, components.closable component →
    ∃ name, components.Reached items name ∧ Dict.lastOf items name = some component
  /-- Names and components were registered in the same order. -/
  ordered : ∀ name name' component component', components.Reached items name →
    components.Reached items name' → Dict.lastOf items name = some component →
    Dict.lastOf items name' = some component' → components.closable component →
    components.closable component' → Dict.firstAt items name < Dict.firstAt items name' →
    startedAt items component < startedAt items component'

variable {components}

/-! ## What the loop gets to -/

/-- A component that can be closed is, and the loop goes on behind it unless its exception cannot be
logged. -/
theorem closed_shutdown_cons (name : PyStr) (component : C) (items : List (PyStr × C)) :
    (components.shutdown ((name, component) :: items)).1 =
      if components.closable component then
        component :: if components.halts component then [] else (components.shutdown items).1
      else (components.shutdown items).1 := by
  unfold closable halts
  rw [shutdown]
  rcases components.closer component with _ | ⟨⟨_, _ | text⟩ | ⟨⟩⟩ <;> rfl

/-- A component without a `close` method halts no shutdown. -/
theorem halts_eq_false_of_not_closable {component : C}
    (h : components.closable component = false) : components.halts component = false := by
  unfold closable at h
  unfold halts
  rw [Option.isSome_eq_false_iff, Option.isNone_iff_eq_none] at h
  rw [h]

/-- Which of the later items are closed behind an item that comes before all of them: none, if its
exception cannot be logged. -/
theorem filter_closed_cons {key : PyStr → ℕ} {item : PyStr × C} {items : List (PyStr × C)}
    (hfirst : ∀ other ∈ items, key other.1 < key item.1) :
    (items.filter fun other => components.closable other.2 ∧
        ∀ item' ∈ item :: items, key other.1 < key item'.1 → components.halts item'.2 = false) =
      if components.halts item.2 then []
      else items.filter fun other => components.closable other.2 ∧
        ∀ item' ∈ items, key other.1 < key item'.1 → components.halts item'.2 = false := by
  have hothers (other : PyStr × C) (hother : other ∈ items) :
      (∀ item' ∈ item :: items, key other.1 < key item'.1 → components.halts item'.2 = false) ↔
        components.halts item.2 = false ∧ ∀ item' ∈ items, key other.1 < key item'.1 →
          components.halts item'.2 = false := by
    rw [List.forall_mem_cons, imp_iff_right (hfirst other hother)]
  split_ifs with hhalts
  · refine List.filter_eq_nil_iff.mpr fun other hother h => ?_
    have hall := ((hothers other hother).mp (of_decide_eq_true h).2).1
    rw [hhalts] at hall
    exact absurd hall Bool.true_eq_false.mp
  · refine List.filter_congr fun other hother => ?_
    exact decide_eq_decide.mpr (and_congr_right fun _ =>
      (hothers other hother).trans (and_iff_right (Bool.not_eq_true _ ▸ hhalts)))

/-- The loop closes what can be closed, up to the first component whose exception cannot be
logged. -/
theorem closed_shutdown {key : PyStr → ℕ} {items : List (PyStr × C)}
    (hkey : items.Pairwise fun item item' => key item'.1 < key item.1) :
    (components.shutdown items).1 = (items.filter fun item => components.closable item.2 ∧
      ∀ item' ∈ items, key item.1 < key item'.1 → components.halts item'.2 = false).map
        Prod.snd := by
  induction items with
  | nil => rfl
  | cons item items ih =>
    obtain ⟨hfirst, hrest⟩ := List.pairwise_cons.mp hkey
    -- the first item has no other before it, and is before all others
    have hitem : ∀ item' ∈ item :: items, key item.1 < key item'.1 →
        components.halts item'.2 = false := by
      refine List.forall_mem_cons.mpr ⟨fun h => absurd h (lt_irrefl _), fun item' hitem' h => ?_⟩
      exact absurd h (hfirst item' hitem').asymm
    obtain ⟨name, component⟩ := item
    rw [closed_shutdown_cons, ih hrest, List.filter_cons, filter_closed_cons hfirst]
    cases hclosable : components.closable component with
    | false =>
      rw [if_neg Bool.false_ne_true, halts_eq_false_of_not_closable hclosable,
        if_neg Bool.false_ne_true, if_neg (by simp)]
    | true =>
      rw [if_pos rfl, if_pos (decide_eq_true ⟨rfl, hitem⟩), List.map_cons]
      cases components.halts component <;> rfl

/-! ## The registry in the end -/

/-- The registry has, under every name, the component that was registered last (`Dict.lastOf`). -/
theorem mem_items_registry_iff (items : List (PyStr × C)) (name : PyStr) (component : C) :
    (name, component) ∈ (Dict.ofItems items).items ↔ Dict.lastOf items name = some component := by
  rw [← Dict.get_eq_some_iff, Dict.get_ofItems]

/-- The items of the registry that are closed. -/
def closedItems (components : Components C) (items : List (PyStr × C)) : List (PyStr × C) :=
  (Dict.ofItems items).items.filter fun item => components.closable item.2 ∧
    ∀ item' ∈ (Dict.ofItems items).items, Dict.firstAt items item.1 < Dict.firstAt items item'.1 →
      components.halts item'.2 = false

/-- A component is closed exactly if the shutdown reaches its name, it is the one registered last
under this name, and it has a `close` method. -/
theorem mem_closedItems_iff {items : List (PyStr × C)} {name : PyStr} {component : C} :
    (name, component) ∈ components.closedItems items ↔
      components.Reached items name ∧ Dict.lastOf items name = some component ∧
        components.closable component = true := by
  have hreached : (∀ item' ∈ (Dict.ofItems items).items,
      Dict.firstAt items name < Dict.firstAt items item'.1 → components.halts item'.2 = false) ↔
        components.Reached items name := by
    rw [Reached, Prod.forall]
    refine forall₂_congr fun name' component' => ?_
    rw [mem_items_registry_iff]
    exact Imp.swap
  rw [closedItems, List.mem_filter, mem_items_registry_iff, decide_eq_true_iff, hreached]
  exact ⟨fun ⟨hlast, hclosable, h⟩ => ⟨h, hlast, hclosable⟩,
    fun ⟨h, hlast, hclosable⟩ => ⟨hlast, hclosable, h⟩⟩

/-- What `lifespan` closes, whether or not its body raises: the components of the registry in the
reverse order, up to one whose `close` is not caught. -/
theorem closed_lifespan (components : Components C) (config : C)
    (registrations : List (PyStr × C)) (body : Except PyExc Unit) :
    (components.lifespan config registrations body).1 =
      ((components.closedItems (registered config registrations)).map Prod.snd).reverse := by
  have hkey := List.pairwise_reverse.mpr
    (Dict.pairwise_ofItems (registered config registrations))
  show (components.shutdown (Dict.ofItems (registered config registrations)).items.reverse).1 = _
  rw [closed_shutdown hkey, List.filter_reverse, List.map_reverse, closedItems]
  simp only [List.mem_reverse]

/-- The components that are closed stand in the registry in the order in which their names were
registered first. -/
theorem pairwise_closedItems_iff {items : List (PyStr × C)} {R : C → C → Prop} :
    ((components.closedItems items).map Prod.snd).Pairwise R ↔
      ∀ name name' component component', components.Reached items name →
        components.Reached items name' → Dict.lastOf items name = some component →
        Dict.lastOf items name' = some component' → components.closable component →
        components.closable component' → Dict.firstAt items name < Dict.firstAt items name' →
        R component component' := by
  have hkey : (components.closedItems items).Pairwise fun item item' =>
      Dict.firstAt items item.1 < Dict.firstAt items item'.1 :=
    (Dict.pairwise_ofItems items).filter _
  rw [List.pairwise_map, List.pairwise_iff_forall_of_asymm (fun _ _ h => h.asymm) hkey]
  simp only [Prod.forall, mem_closedItems_iff]
  constructor
  · intro h name name' component component' hreached hreached' hlast hlast' hclosable hclosable'
    exact h name component ⟨hreached, hlast, hclosable⟩ name' component'
      ⟨hreached', hlast', hclosable'⟩
  · rintro h name component ⟨hreached, hlast, hclosable⟩ name' component'
      ⟨hreached', hlast', hclosable'⟩
    exact h name name' component component' hreached hreached' hlast hlast' hclosable hclosable'

/-! ## Shutdown in reverse order -/

/-- Every component is closed once, in the reverse order of the registrations (`ClosedInReverse`),
exactly if the components are `InOrder`: each of those that can be closed is the one that a name
stands for in the end, and the names were first registered in the order of these components. A name
that is registered twice loses the first of its components. -/
theorem closedInReverse_iff [DecidableEq C] (components : Components C) (config : C)
    (registrations : List (PyStr × C)) (body : Except PyExc Unit) :
    components.ClosedInReverse config registrations body ↔
      components.InOrder (registered config registrations) := by
  have hclosed := components.closed_lifespan config registrations body
  have hmem (component : C) :
      component ∈ (components.lifespan config registrations body).1 ↔
        ∃ name, components.Reached (registered config registrations) name ∧
          Dict.lastOf (registered config registrations) name = some component ∧
            components.closable component = true := by
    simp only [hclosed, List.mem_reverse, List.mem_map, Prod.exists, mem_closedItems_iff,
      exists_eq_right]
  constructor
  · rintro ⟨-, hall, hreverse⟩
    rw [hclosed, List.pairwise_reverse, pairwise_closedItems_iff] at hreverse
    refine ⟨fun component hcomponent hclosable => ?_, hreverse⟩
    obtain ⟨name, hreached, hlast, -⟩ :=
      (hmem component).mp ((hall component).mpr ⟨hcomponent, hclosable⟩)
    exact ⟨name, hreached, hlast⟩
  · rintro ⟨hkept, hordered⟩
    rw [← pairwise_closedItems_iff, ← List.pairwise_reverse, ← hclosed] at hordered
    refine ⟨hordered.imp fun hlt => ?_, fun component => ?_, hordered⟩
    · rintro rfl
      exact absurd hlt (lt_irrefl _)
    · rw [hmem]
      constructor
      · rintro ⟨name, -, hlast, hclosable⟩
        exact ⟨List.mem_map_of_mem (Dict.mem_of_lastOf hlast), hclosable⟩
      · rintro ⟨hcomponent, hclosable⟩
        obtain ⟨name, hreached, hlast⟩ := hkept component hcomponent hclosable
        exact ⟨name, hreached, hlast, hclosable⟩

/-- Three components with a `close`, beside the configuration. -/
def closers : Components ℕ where
  close component := if component = 0 then none else some (.ok ())
  aclose _ := none

/-- A store is registered, then a cache, and then another store under the name of the first one. The
first store is never closed, and the second one is closed in its place, after the cache. -/
theorem replacedStore_not_closedInReverse :
    ¬closers.ClosedInReverse 0
      [("store".toList, 1), ("cache".toList, 2), ("store".toList, 3)] (.ok ()) := by
  intro h
  have hnot : 1 ∉ (closers.lifespan 0
      [("store".toList, 1), ("cache".toList, 2), ("store".toList, 3)] (.ok ())).1 := by decide
  exact hnot ((h.all 1).mpr (by decide))

end Components
