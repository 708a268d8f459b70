import Chattice.Data.Forest
import Chattice.Dispatcher.Router
import Chattice.Python.Str

/-!
# How router trees are built

Routers as objects that refer to each other: a heap of them, with the constructors, `include_router`
and the registrations as the calls that change it. `_contains` and `_walk` recurse on the children, so
they are run with a bound on the depth of the recursion; `none` is a recursion that has not ended.

* `Reach` : the heaps that sequences of calls build;
* `Reach.isForest` : parents and children agree and nothing is above itself;
* `Heap.walk_toRouter` : the walk of an object is the walk of the tree below it;
* `router_forest` : the trees stay a forest, and every walk is a preorder walk of it.
-/

namespace Chattice.Routing

open Forest Python Relation

variable {m : Type → Type} {Ev V : Type}

/-- A `Router` object; other objects are referred to by their place in the heap. -/
structure Node (m : Type → Type) (Ev V : Type) where
  name : String
  observer : ObserverName → EventObserver m Ev V
  middleware : List (Middleware m Ev V)
  parent : Option Nat
  children : List Nat
  isDispatcher : Bool

abbrev Heap (m : Type → Type) (Ev V : Type) := List (Node m Ev V)

inductive InclusionError where
  | valueError (message : String)
  | routerConfigurationError (message : Text)
  deriving Repr

namespace Heap

/-- A field of an object, `default` outside the heap. -/
def field {γ : Type} (default : γ) (get : Node m Ev V → γ) (h : Heap m Ev V) (r : Nat) : γ :=
  h[r]?.elim default get

def parent (h : Heap m Ev V) : Nat → Option Nat := h.field none Node.parent

def children (h : Heap m Ev V) : Nat → List Nat := h.field [] Node.children

def middleware (h : Heap m Ev V) : Nat → List (Middleware m Ev V) := h.field [] Node.middleware

def isDispatcher (h : Heap m Ev V) : Nat → Bool := h.field false Node.isDispatcher

def name (h : Heap m Ev V) : Nat → String := h.field "" Node.name

/-! ## The calls -/

/-- `Router.__init__` -/
def newRouter (h : Heap m Ev V) (name : Option String) (isDispatcher : Bool) :
    Heap m Ev V × Except InclusionError Nat :=
  let name := if truthy name then name.getD "router" else "router"
  if strip name = "" then (h, .error (.valueError "Router name cannot be empty"))
  else (h ++ [⟨name, fun _ => ⟨[], []⟩, [], none, [], isDispatcher⟩], .ok h.length)

/-- `Router(name=name)` -/
def router (h : Heap m Ev V) (name : Option String) : Heap m Ev V × Except InclusionError Nat :=
  h.newRouter name false

/-- `Dispatcher(name=name)` -/
def dispatcher (h : Heap m Ev V) (name : Option String) : Heap m Ev V × Except InclusionError Nat :=
  h.newRouter name true

/-- `Router._contains` -/
def contains (h : Heap m Ev V) (fuel : Nat) (self candidate : Nat) : Option Bool :=
  Forest.contains h.children candidate fuel self

/-- `router._parent = self` and `self._children.append(router)` -/
def attach (h : Heap m Ev V) (self router : Nat) : Heap m Ev V :=
  (h.modify router fun node => { node with parent := some self }).modify self fun node =>
    { node with children := node.children ++ [router] }

/-- `self.include_router(router)` -/
def includeRouter (h : Heap m Ev V) (fuel : Nat) (self router : Nat) :
    Option (Heap m Ev V × Except InclusionError Nat) :=
  if router = self then
    some (h, .error (.routerConfigurationError [.text "A router cannot include itself"]))
  else if h.isDispatcher router then
    some (h, .error (.routerConfigurationError
      [.text "A Dispatcher cannot be attached as a child"]))
  else
    match h.parent router with
    | some parent => some (h, .error (.routerConfigurationError
        [.text "Router ", .repr (.str (h.name router)), .text " is already attached to ",
          .repr (.str (h.name parent))]))
    | none => do
      if ← h.contains fuel router self then
        return (h, .error (.routerConfigurationError
          [.text "Including ", .repr (.str (h.name router)), .text " in ",
            .repr (.str (h.name self)), .text " would create a cycle"]))
      else return (h.attach self router, .ok router)

/-- `router.middleware.register(middleware)` -/
def registerMiddleware (h : Heap m Ev V) (router : Nat) (item : Middleware m Ev V) : Heap m Ev V :=
  h.modify router fun node => { node with middleware := node.middleware ++ [item] }

/-- `router.<observer>.register(callback, *filters)` -/
def registerHandler (h : Heap m Ev V) (router : Nat) (observer : ObserverName)
    (handler : HandlerObject m Ev V) : Heap m Ev V :=
  h.modify router fun node => { node with
    observer := Function.update node.observer observer
      { node.observer observer with handlers := (node.observer observer).handlers ++ [handler] } }

/-- `router.<observer>.filter(*filters)` -/
def registerFilters (h : Heap m Ev V) (router : Nat) (observer : ObserverName)
    (filters : List (Filter m Ev V)) : Heap m Ev V :=
  h.modify router fun node => { node with
    observer := Function.update node.observer observer
      { node.observer observer with filters := (node.observer observer).filters ++ filters } }

/-- `router._walk(inherited)` -/
def walk (h : Heap m Ev V) (fuel : Nat) (inherited : List (Middleware m Ev V)) (router : Nat) :
    Option (List (Nat × List (Middleware m Ev V))) :=
  Forest.walk h.children (fun inherited r => inherited ++ h.middleware r) fuel inherited router

/-- The tree of a router, as `Router.walk` reads it. -/
def toRouter (h : Heap m Ev V) : Nat → Nat → Option (Router m Ev V)
  | 0, _ => none
  | fuel + 1, r => do
    let node ← h[r]?
    return .mk node.name node.observer node.middleware
      (← (h.children r).mapM (h.toRouter fuel))

/-- The heaps that sequences of calls build. Arguments are objects of the heap. -/
inductive Reach : Heap m Ev V → Prop where
  | empty : Reach []
  | router {h : Heap m Ev V} (name : Option String) : Reach h → Reach (h.router name).1
  | dispatcher {h : Heap m Ev V} (name : Option String) : Reach h → Reach (h.dispatcher name).1
  | includeRouter {h h' : Heap m Ev V} {fuel : Nat} (self router : Fin h.length)
      {result : Except InclusionError Nat} :
      Reach h → h.includeRouter fuel self router = some (h', result) → Reach h'
  | middleware {h : Heap m Ev V} (router : Fin h.length) (item : Middleware m Ev V) :
      Reach h → Reach (h.registerMiddleware router item)
  | handler {h : Heap m Ev V} (router : Fin h.length) (observer : ObserverName)
      (handler : HandlerObject m Ev V) : Reach h → Reach (h.registerHandler router observer handler)
  | filters {h : Heap m Ev V} (router : Fin h.length) (observer : ObserverName)
      (filters : List (Filter m Ev V)) : Reach h → Reach (h.registerFilters router observer filters)

/-! ## What the calls change -/

section Fields

variable {γ : Type} {default : γ} {get : Node m Ev V → γ} {h : Heap m Ev V}

theorem field_modify {r : Nat} {f : Node m Ev V → Node m Ev V} {k : γ → γ} (hr : r < h.length)
    (hget : ∀ node, get (f node) = k (get node)) :
    field default get (h.modify r f) =
      Function.update (h.field default get) r (k (h.field default get r)) := by
  funext i
  rw [field, List.getElem?_modify]
  by_cases hi : i = r
  · subst hi
    rw [Function.update_self, field, List.getElem?_eq_getElem hr]
    simp [hget]
  · rw [Function.update_of_ne hi, field]
    simp [Ne.symm hi]

theorem field_modify_same {f : Node m Ev V → Node m Ev V} (r : Nat)
    (hget : ∀ node, get (f node) = get node) :
    field default get (h.modify r f) = h.field default get := by
  by_cases hr : r < h.length
  · rw [field_modify (k := id) hr hget, id, Function.update_eq_self]
  · rw [List.modify_eq_self (Nat.le_of_not_lt hr)]

theorem field_append {node : Node m Ev V} :
    field default get (h ++ [node]) = Function.update (h.field default get) h.length (get node) := by
  funext i
  by_cases hi : i = h.length
  · subst hi
    rw [Function.update_self, field, List.getElem?_concat_length]
    rfl
  · rw [Function.update_of_ne hi, field, field]
    rcases Nat.lt_or_gt_of_ne hi with hlt | hgt
    · rw [List.getElem?_append_left hlt]
    · rw [List.getElem?_eq_none (by simp; omega), List.getElem?_eq_none (by omega)]

theorem field_length : h.field default get h.length = default := by
  rw [field, List.getElem?_eq_none (Nat.le_refl _)]
  rfl

end Fields

variable {h h' : Heap m Ev V}

/-- What `include_router` can do: reject, and change nothing, or attach a detached router in whose
subtree the search has not found the new parent. -/
theorem includeRouter_cases {fuel self router : Nat} {result : Except InclusionError Nat}
    (hcall : h.includeRouter fuel self router = some (h', result)) :
    (h' = h ∧ ∃ e, result = .error e) ∨
    (h' = h.attach self router ∧ result = .ok router ∧ router ≠ self ∧
      h.isDispatcher router = false ∧ h.parent router = none ∧
      h.contains fuel router self = some false) := by
  unfold includeRouter at hcall
  split at hcall
  · cases hcall
    exact .inl ⟨rfl, _, rfl⟩
  next hself =>
    split at hcall
    · cases hcall
      exact .inl ⟨rfl, _, rfl⟩
    next hdispatcher =>
      split at hcall
      · cases hcall
        exact .inl ⟨rfl, _, rfl⟩
      next hparent =>
        obtain ⟨found, hfound, hrest⟩ := Option.bind_eq_some_iff.mp hcall
        cases found with
        | true =>
          cases hrest
          exact .inl ⟨rfl, _, rfl⟩
        | false =>
          cases hrest
          exact .inr ⟨rfl, rfl, hself, Bool.eq_false_of_not_eq_true hdispatcher, hparent, hfound⟩

theorem includeRouter_ok_iff {fuel self router : Nat} {result : Except InclusionError Nat} {found : Bool}
    (hcall : h.includeRouter fuel self router = some (h', result))
    (hfound : h.contains fuel router self = some found) :
    (∃ r, result = .ok r) ↔ router ≠ self ∧ h.isDispatcher router = false ∧ h.parent router = none ∧
      found = false := by
  constructor
  · rintro ⟨r, rfl⟩
    obtain ⟨-, e, hresult⟩ | ⟨-, -, hself, hdispatcher, hparent, hnot⟩ := includeRouter_cases hcall
    · cases hresult
    · exact ⟨hself, hdispatcher, hparent, Option.some_inj.mp (hfound.symm.trans hnot)⟩
  · rintro ⟨hself, hdispatcher, hparent, rfl⟩
    rw [includeRouter, if_neg hself, hdispatcher, if_neg Bool.false_ne_true, hparent, hfound] at hcall
    cases hcall
    exact ⟨router, rfl⟩

theorem includeRouter_ends {fuel : Nat} (self router : Nat) {found : Bool}
    (hfound : h.contains fuel router self = some found) :
    ∃ h' result, h.includeRouter fuel self router = some (h', result) := by
  unfold includeRouter
  split
  · exact ⟨_, _, rfl⟩
  · split
    · exact ⟨_, _, rfl⟩
    · split
      · exact ⟨_, _, rfl⟩
      · rw [hfound]
        cases found <;> exact ⟨_, _, rfl⟩

/-- The links and the middleware of the objects. -/
structure Linked (h : Heap m Ev V) (parent : Nat → Option Nat) (children : Nat → List Nat)
    (middleware : Nat → List (Middleware m Ev V)) : Prop where
  parent : h.parent = parent
  children : h.children = children
  middleware : h.middleware = middleware

theorem linked_append {node : Node m Ev V} (hparent : node.parent = none) (hchildren : node.children = [])
    (hmiddleware : node.middleware = []) :
    Linked (h ++ [node]) h.parent h.children h.middleware := by
  refine ⟨?_, ?_, ?_⟩
  · rw [Heap.parent, field_append, hparent]
    exact Function.update_eq_self_iff.mpr field_length.symm
  · rw [Heap.children, field_append, hchildren]
    exact Function.update_eq_self_iff.mpr field_length.symm
  · rw [Heap.middleware, field_append, hmiddleware]
    exact Function.update_eq_self_iff.mpr field_length.symm

/-- What a constructor can do: reject the name, and change nothing, or append an object without links. -/
theorem newRouter_cases {name : Option String} {isDispatcher : Bool} {result : Except InclusionError Nat}
    (hcall : h.newRouter name isDispatcher = (h', result)) :
    (h' = h ∧ ∃ e, result = .error e) ∨
      ∃ name, h' = h ++ [⟨name, fun _ => ⟨[], []⟩, [], none, [], isDispatcher⟩] ∧
        result = .ok h.length := by
  unfold newRouter at hcall
  generalize (if truthy name = true then name.getD "router" else "router") = name at hcall
  dsimp only at hcall
  split at hcall
  · cases hcall
    exact .inl ⟨rfl, _, rfl⟩
  · cases hcall
    exact .inr ⟨name, rfl, rfl⟩

/-! ## The invariant -/

/-- The routers of the heap form a forest with the dispatchers among its roots. -/
structure Ok (h : Heap m Ev V) : Prop where
  forest : IsForest h.parent h.children
  inside : ∀ p c, c ∈ h.children p → c < h.length
  dispatchers : ∀ d, h.isDispatcher d = true → h.parent d = none

theorem ok_empty : Ok ([] : Heap m Ev V) := by
  refine ⟨⟨fun p c => iff_of_false List.not_mem_nil nofun, fun p => List.nodup_nil, ?_⟩,
    fun p c hc => absurd hc List.not_mem_nil, fun d _ => rfl⟩
  intro a hcycle
  obtain ⟨b, hab, -⟩ := TransGen.head'_iff.mp hcycle
  cases hab

/-- A change of one object that keeps its links keeps the forest. -/
theorem Ok.modify (hok : h.Ok) (r : Nat) {f : Node m Ev V → Node m Ev V}
    (hparent : ∀ node, (f node).parent = node.parent)
    (hchildren : ∀ node, (f node).children = node.children)
    (hdispatcher : ∀ node, (f node).isDispatcher = node.isDispatcher) : Ok (h.modify r f) := by
  have hp : parent (h.modify r f) = h.parent := field_modify_same r hparent
  have hc : children (h.modify r f) = h.children := field_modify_same r hchildren
  have hd : isDispatcher (h.modify r f) = h.isDispatcher := field_modify_same r hdispatcher
  refine ⟨?_, ?_, ?_⟩
  · rw [hp, hc]
    exact hok.forest
  · rw [hc]
    intro p c hmem
    rw [List.length_modify]
    exact hok.inside p c hmem
  · rw [hd, hp]
    exact hok.dispatchers

theorem Ok.append (hok : h.Ok) {node : Node m Ev V} (hparent : node.parent = none)
    (hchildren : node.children = []) (hmiddleware : node.middleware = []) : Ok (h ++ [node]) := by
  obtain ⟨hp, hc, -⟩ := linked_append (h := h) hparent hchildren hmiddleware
  refine ⟨?_, fun p c hmem => ?_, fun d hd => ?_⟩
  · rw [hp, hc]
    exact hok.forest
  · rw [hc] at hmem
    rw [List.length_append]
    exact Nat.lt_add_right _ (hok.inside p c hmem)
  · rw [hp]
    rw [isDispatcher, field_append] at hd
    by_cases hlast : d = h.length
    · rw [hlast]
      exact field_length
    · rw [Function.update_of_ne hlast] at hd
      exact hok.dispatchers d hd

theorem Ok.newRouter (hok : h.Ok) (name : Option String) (dispatcher : Bool) :
    (h.newRouter name dispatcher).1.Ok := by
  obtain ⟨hsame, -⟩ | ⟨name, hnew, -⟩ := newRouter_cases (h := h) (Prod.eta _).symm
  · rw [hsame]
    exact hok
  · rw [hnew]
    exact hok.append rfl rfl rfl

theorem attach_links {self router : Nat} (hself : self < h.length) (hrouter : router < h.length) :
    (h.attach self router).parent = Function.update h.parent router (some self) ∧
      (h.attach self router).children =
        Function.update h.children self (h.children self ++ [router]) ∧
      (h.attach self router).isDispatcher = h.isDispatcher := by
  refine ⟨?_, ?_, ?_⟩
  · refine (field_modify_same self ?_).trans ?_
    · exact fun _ => rfl
    · exact field_modify (k := fun _ => some self) hrouter fun _ => rfl
  · have hfirst : children (h.modify router fun node => { node with parent := some self }) =
        h.children := field_modify_same router fun _ => rfl
    refine (field_modify (k := fun children => children ++ [router]) ?_ ?_).trans ?_
    · rw [List.length_modify]
      exact hself
    · exact fun _ => rfl
    · exact congrArg (fun children => Function.update children self (children self ++ [router]))
        hfirst
  · refine (field_modify_same self ?_).trans ?_
    · exact fun _ => rfl
    · exact field_modify_same router fun _ => rfl

theorem linked_attach {self router : Nat} (hself : self < h.length) (hrouter : router < h.length) :
    (h.attach self router).Linked (Function.update h.parent router (some self))
      (Function.update h.children self (h.children self ++ [router])) h.middleware := by
  obtain ⟨hp, hc, -⟩ := attach_links hself hrouter
  refine ⟨hp, hc, (field_modify_same self ?_).trans ?_⟩
  · exact fun _ => rfl
  · exact field_modify_same router fun _ => rfl

theorem linked_registerMiddleware {router : Nat} (hrouter : router < h.length) (item : Middleware m Ev V) :
    (h.registerMiddleware router item).Linked h.parent h.children
      (Function.update h.middleware router (h.middleware router ++ [item])) := by
  refine ⟨field_modify_same router fun _ => rfl, field_modify_same router fun _ => rfl, ?_⟩
  exact field_modify (k := fun middleware => middleware ++ [item]) hrouter fun _ => rfl

theorem Ok.attach (hok : h.Ok) {self router : Nat} (hself : self < h.length)
    (hrouter : router < h.length) (hdispatcher : h.isDispatcher router = false)
    (hroot : h.parent router = none) (hbelow : ¬ Below h.parent router self) :
    (h.attach self router).Ok := by
  obtain ⟨hp, hc, hd⟩ := attach_links hself hrouter
  have hlength : (h.attach self router).length = h.length := by
    rw [Heap.attach, List.length_modify, List.length_modify]
  refine ⟨?_, fun p c hmem => ?_, fun d hdisp => ?_⟩
  · rw [hp, hc]
    exact hok.forest.attach hroot hbelow
  · rw [hlength]
    rw [hc] at hmem
    by_cases hpself : p = self
    · rw [hpself, Function.update_self, List.mem_append, List.mem_singleton] at hmem
      obtain hold | rfl := hmem
      · exact hok.inside self c hold
      · exact hrouter
    · rw [Function.update_of_ne hpself] at hmem
      exact hok.inside p c hmem
  · rw [hd] at hdisp
    have hne : d ≠ router := by
      rintro rfl
      rw [hdispatcher] at hdisp
      cases hdisp
    rw [hp, Function.update_of_ne hne]
    exact hok.dispatchers d hdisp

/-- Every call keeps the invariant. -/
theorem Reach.ok (hreach : h.Reach) : h.Ok := by
  induction hreach with
  | empty => exact ok_empty
  | router name _ ih => exact ih.newRouter name false
  | dispatcher name _ ih => exact ih.newRouter name true
  | includeRouter self router _ hcall ih =>
    obtain ⟨rfl, -⟩ | ⟨rfl, -, -, hdispatcher, hroot, hcontains⟩ := includeRouter_cases hcall
    · exact ih
    · refine ih.attach self.isLt router.isLt hdispatcher hroot fun hbelow => ?_
      have hfound := (ih.forest.contains_sound hcontains).mpr hbelow
      cases hfound
  | middleware router item _ ih => exact ih.modify router (fun _ => rfl) (fun _ => rfl) fun _ => rfl
  | handler router observer handler _ ih =>
    exact ih.modify router (fun _ => rfl) (fun _ => rfl) fun _ => rfl
  | filters router observer filters _ ih =>
    exact ih.modify router (fun _ => rfl) (fun _ => rfl) fun _ => rfl

/-! ## The searches and the walks -/

/-- No recursion on the children goes deeper than there are routers. -/
theorem Ok.shallow (hok : h.Ok) {fuel : Nat} (hfuel : h.length ≤ fuel) {r : Nat}
    (hr : r < h.length) : Shallow h.children fuel r :=
  hok.forest.shallow (Finset.range h.length)
    (fun p c hc => Finset.mem_range.mpr (hok.inside p c hc)) (Finset.mem_range.mpr hr)
    (by rwa [Finset.card_range])

theorem foldl_middleware (inherited : List (Middleware m Ev V)) (path : List Nat) :
    path.foldl (fun inherited r => inherited ++ h.middleware r) inherited =
      inherited ++ path.flatMap h.middleware := by
  induction path generalizing inherited with
  | nil => exact (List.append_nil _).symm
  | cons r path ih => rw [List.foldl_cons, ih, List.flatMap_cons, List.append_assoc]

/-- The walk of a router: it ends, and lists the routers of the subtree, each exactly once and in
preorder, with the middleware of the path down to it. -/
theorem Ok.walk (hok : h.Ok) {fuel : Nat} (hfuel : h.length ≤ fuel) {r : Nat} (hr : r < h.length)
    (inherited : List (Middleware m Ev V)) :
    ∃ xs, h.walk fuel inherited r = some xs ∧
      (∀ x, x ∈ xs.map Prod.fst ↔ Below h.parent r x) ∧ (xs.map Prod.fst).Nodup ∧
      (xs.map Prod.fst).Pairwise (Precedes h.parent h.children) ∧
      ∀ x middleware, (x, middleware) ∈ xs → ∃ path, Path h.children r x path ∧
        middleware = inherited ++ path.flatMap h.middleware := by
  obtain ⟨xs, hxs⟩ := walk_of_shallow inherited (hok.shallow hfuel hr)
  obtain ⟨hmem, hnodup, hpairwise, hmiddleware⟩ := hok.forest.walk_spec hxs
  refine ⟨xs, hxs, hmem, hnodup, hpairwise, fun x middleware hx => ?_⟩
  obtain ⟨path, hpath, hvalue⟩ := hmiddleware x middleware hx
  exact ⟨path, hpath, by rw [← hvalue, foldl_middleware]⟩

theorem Ok.toRouter (hok : h.Ok) {fuel r : Nat} (hr : r < h.length)
    (hshallow : Shallow h.children fuel r) : ∃ tree, h.toRouter fuel r = some tree := by
  induction fuel generalizing r with
  | zero => exact absurd hshallow id
  | succ fuel ih =>
    obtain ⟨trees, htrees⟩ := exists_mapM fun c hc => ih (hok.inside r c hc) (hshallow c hc)
    exact ⟨_, by rw [Heap.toRouter, List.getElem?_eq_getElem hr, htrees]; rfl⟩

/-- An entry of the walk of an object, and the entry of its tree in the walk of the whole tree. -/
def Lists (h : Heap m Ev V) (x : Nat × List (Middleware m Ev V))
    (y : Router m Ev V × List (Middleware m Ev V)) : Prop :=
  (∃ fuel, h.toRouter fuel x.1 = some y.1) ∧ x.2 = y.2

theorem lists_children {fuel : Nat} {inherited : List (Middleware m Ev V)}
    (hlists : ∀ c xs tree, h.walk fuel inherited c = some xs → h.toRouter fuel c = some tree →
      List.Forall₂ h.Lists xs (tree.walk inherited))
    {sub : Nat → List (Nat × List (Middleware m Ev V))} {cs : List Nat}
    {trees : List (Router m Ev V)} (hsub : ∀ c ∈ cs, h.walk fuel inherited c = some (sub c))
    (htrees : cs.map (h.toRouter fuel) = trees.map some) :
    List.Forall₂ h.Lists (cs.flatMap sub) (Router.walkChildren inherited trees) := by
  induction cs generalizing trees with
  | nil =>
    rw [List.map_eq_nil_iff.mp htrees.symm]
    exact .nil
  | cons c cs ih =>
    obtain ⟨tree, trees, rfl, hfirst, hrest⟩ := List.map_eq_cons_iff.mp htrees.symm
    rw [List.flatMap_cons, Router.walkChildren]
    have hhead := hlists c (sub c) tree (hsub c (.head _)) hfirst.symm
    exact List.rel_append hhead (ih (fun c hc => hsub c (.tail _ hc)) hrest.symm)

/-- The walk of an object lists what the walk of its tree lists. -/
theorem walk_toRouter {fuel : Nat} {inherited : List (Middleware m Ev V)} {r : Nat}
    {xs : List (Nat × List (Middleware m Ev V))} {tree : Router m Ev V}
    (hwalk : h.walk fuel inherited r = some xs) (htree : h.toRouter fuel r = some tree) :
    List.Forall₂ h.Lists xs (tree.walk inherited) := by
  induction fuel generalizing inherited r xs tree with
  | zero => cases hwalk
  | succ fuel ih =>
    obtain ⟨sub, hsub, rfl⟩ := walk_succ hwalk
    have hself := htree
    obtain ⟨node, hnode, htree⟩ := Option.bind_eq_some_iff.mp htree
    obtain ⟨trees, htrees, hdone⟩ := Option.bind_eq_some_iff.mp htree
    cases hdone
    have hmiddleware : h.middleware r = node.middleware := by
      rw [middleware, field, hnode]
      rfl
    rw [Router.walk, hmiddleware]
    rw [hmiddleware] at hsub
    refine .cons ⟨⟨fuel + 1, hself⟩, rfl⟩ ?_
    exact lists_children (fun _ _ _ => ih) hsub (mapM_eq_some htrees)

/-- Every router of a reachable heap has a tree, and its walk is the walk of that tree. -/
theorem Reach.walk_tree (hreach : h.Reach) (r : Fin h.length)
    (inherited : List (Middleware m Ev V)) :
    ∃ tree xs, h.toRouter h.length r = some tree ∧ h.walk h.length inherited r = some xs ∧
      List.Forall₂ h.Lists xs (tree.walk inherited) := by
  have hok := hreach.ok
  have hshallow := hok.shallow (Nat.le_refl _) r.isLt
  obtain ⟨tree, htree⟩ := hok.toRouter r.isLt hshallow
  obtain ⟨xs, hxs⟩ := walk_of_shallow inherited hshallow
  exact ⟨tree, xs, htree, hxs, walk_toRouter hxs htree⟩

end Heap

/-- **Router trees.** In every heap that constructions, registrations and `include_router` calls
build: the lists of children and the parents agree, nothing is listed twice or above itself, and no
dispatcher has a parent; `include_router` ends, succeeds exactly for a detached router that is no dispatcher
and not above the new parent, appends it to the children of that parent and changes no other link, and changes
nothing when it raises; a new router is detached, and a registered middleware comes after the others; and the
walk of every router ends and lists its subtree, each router exactly once and in preorder, with the middleware
registered along the path down to it. -/
theorem router_forest (h : Heap m Ev V) (hreach : h.Reach) :
    (∀ p c, c ∈ h.children p ↔ h.parent c = some p) ∧
    (∀ p, (h.children p).Nodup) ∧
    (∀ r, ¬ TransGen (Up h.parent) r r) ∧
    (∀ d, h.isDispatcher d = true → h.parent d = none) ∧
    (∀ fuel, h.length ≤ fuel → ∀ self router : Fin h.length, ∃ h' result,
      h.includeRouter fuel self router = some (h', result) ∧
        ((∃ r, result = .ok r) ↔ router ≠ self ∧ h.isDispatcher router = false ∧
          h.parent router = none ∧ ¬ Below h.parent router self)) ∧
    (∀ fuel (self router : Fin h.length) h' r, h.includeRouter fuel self router = some (h', .ok r) →
      r = router ∧ h'.Linked (Function.update h.parent router (some (self : Nat)))
        (Function.update h.children self (h.children self ++ [(router : Nat)])) h.middleware) ∧
    (∀ fuel self router h' e, h.includeRouter fuel self router = some (h', .error e) → h' = h) ∧
    (∀ name isDispatcher h' r, h.newRouter name isDispatcher = (h', .ok r) →
      r = h.length ∧ h'.length = h.length + 1 ∧ h'.Linked h.parent h.children h.middleware ∧
        h'.isDispatcher r = isDispatcher) ∧
    (∀ name isDispatcher h' e, h.newRouter name isDispatcher = (h', .error e) → h' = h) ∧
    (∀ (router : Fin h.length) item, (h.registerMiddleware router item).Linked h.parent h.children
      (Function.update h.middleware router (h.middleware router ++ [item]))) ∧
    ∀ fuel, h.length ≤ fuel → ∀ r : Fin h.length, ∀ inherited,
      ∃ xs, h.walk fuel inherited r = some xs ∧
        (∀ x, x ∈ xs.map Prod.fst ↔ Below h.parent r x) ∧ (xs.map Prod.fst).Nodup ∧
        (xs.map Prod.fst).Pairwise (Precedes h.parent h.children) ∧
        ∀ x middleware, (x, middleware) ∈ xs → ∃ path, Path h.children r x path ∧
          middleware = inherited ++ path.flatMap h.middleware := by
  have hok := hreach.ok
  refine ⟨hok.forest.agree, hok.forest.nodup, hok.forest.acyclic, hok.dispatchers,
    fun fuel hfuel self router => ?_, fun fuel self router h' r hcall => ?_,
    fun fuel self router h' e hcall => ?_, fun name isDispatcher h' r hcall => ?_,
    fun name isDispatcher h' e hcall => ?_, fun router item => Heap.linked_registerMiddleware router.isLt item,
    fun fuel hfuel r inherited => hok.walk hfuel r.isLt inherited⟩
  · obtain ⟨found, hfound⟩ := contains_of_shallow (self : Nat) (hok.shallow hfuel router.isLt)
    obtain ⟨h', result, hcall⟩ := Heap.includeRouter_ends self router hfound
    refine ⟨h', result, hcall, ?_⟩
    rw [Heap.includeRouter_ok_iff hcall hfound, ← hok.forest.contains_sound hfound, Bool.not_eq_true,
      Ne, Ne, Fin.ext_iff]
  · obtain ⟨-, e, hresult⟩ | ⟨rfl, hresult, -⟩ := Heap.includeRouter_cases hcall
    · cases hresult
    · exact ⟨Except.ok.inj hresult, Heap.linked_attach self.isLt router.isLt⟩
  · obtain ⟨rfl, -⟩ | ⟨-, hresult, -⟩ := Heap.includeRouter_cases hcall
    · rfl
    · cases hresult
  · obtain ⟨-, e, hresult⟩ | ⟨name, rfl, hresult⟩ := Heap.newRouter_cases hcall
    · cases hresult
    · exact ⟨Except.ok.inj hresult, List.length_append, Heap.linked_append rfl rfl rfl, by
        rw [Except.ok.inj hresult, Heap.isDispatcher, Heap.field_append, Function.update_self]⟩
  · obtain ⟨rfl, -⟩ | ⟨name, -, hresult⟩ := Heap.newRouter_cases hcall
    · rfl
    · cases hresult

def detached : Heap Id Unit Unit := ((Heap.dispatcher [] (some "root")).1.router (some "child")).1

def pair : Heap Id Unit Unit := detached.attach 0 1

theorem pair_reach : pair.Reach := by
  have hempty : Heap.Reach ([] : Heap Id Unit Unit) := .empty
  have hdetached : detached.Reach := (hempty.dispatcher (some "root")).router (some "child")
  have hcall : detached.includeRouter 2 0 1 = some (pair, .ok 1) := rfl
  exact hdetached.includeRouter ⟨0, by decide⟩ ⟨1, by decide⟩ hcall

/-- The walk of the dispatcher lists two routers. -/
theorem pair_forest : ∃ xs, pair.walk 2 [] 0 = some xs ∧ (xs.map Prod.fst).Nodup := by
  obtain ⟨-, -, -, -, -, -, -, -, -, -, hwalk⟩ := router_forest pair pair_reach
  obtain ⟨xs, hxs, -, hnodup, -⟩ := hwalk 2 (Nat.le_refl 2) ⟨0, by decide⟩ []
  exact ⟨xs, hxs, hnodup⟩

end Chattice.Routing
