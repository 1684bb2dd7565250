import TypedTables.Database.Plan
import TypedTables.Proofs.Except
/-!
# TypedTables — plans for whole tables

A query without conditions has nothing to search for: the only ways to the rows
of its tables go through all of them, in the order of their numbers or along an
index. Whichever of these a plan takes, it finds every row, so what it arranges
are as many rows as there were.
-/

namespace TypedTables

namespace Access

/-- **A way through all rows** of a table, along an index or not. -/
structure IsThrough (a : Access) : Prop where
  used_eq_nil : a.used = []
  way_eq : a.way = .scan ∨ ∃ i, a.way = .index i

variable {a b new : Access} {found : List Access}

/-- Bringing the estimates of ways into line does not change what they find. -/
theorem IsThrough.align (h : a.IsThrough) (b : Access) : (a.align b).IsThrough := by
  unfold Access.align
  split
  · exact h
  · split
    · exact ⟨h.used_eq_nil, h.way_eq⟩
    · split
      · exact ⟨h.used_eq_nil, h.way_eq⟩
      · exact h

theorem mem_of_mem_remaining (h : a ∈ remaining new found) : a ∈ found := by
  induction found with
  | nil => exact h
  | cons b rest ih =>
    unfold remaining at h
    split at h
    · exact (List.mem_cons.1 h).elim (fun hb => hb ▸ List.mem_cons_self) fun h => List.mem_cons_of_mem b (ih h)
    · split at h
      · exact h
      · split at h
        · exact List.mem_cons_of_mem b (ih h)
        · exact (List.mem_cons.1 h).elim (fun hb => hb ▸ List.mem_cons_self) fun h => List.mem_cons_of_mem b (ih h)

/-- Of two ways that are compared, one is taken as it is. -/
theorem mem_of_mem_place (h : a ∈ place new found) : a = new ∨ a ∈ found := by
  induction found with
  | nil => exact .inl (List.mem_singleton.1 h)
  | cons b rest ih =>
    have hrest : a ∈ b :: place new rest → a = new ∨ a ∈ b :: rest := fun h =>
      (List.mem_cons.1 h).elim (fun hb => .inr (hb ▸ List.mem_cons_self))
        fun h => (ih h).imp_right (List.mem_cons_of_mem b)
    unfold place at h
    split at h
    · exact hrest h
    · split at h
      · exact .inr h
      · split at h
        · exact (List.mem_cons.1 h).imp_right fun h => List.mem_cons_of_mem b (mem_of_mem_remaining h)
        · exact hrest h

theorem isThrough_of_mem_add (hfound : ∀ b ∈ found, b.IsThrough) (hnew : new.IsThrough) (h : a ∈ add found new) :
    a.IsThrough := by
  have haligned : (found.foldl align new).IsThrough :=
    List.foldlRecOn found align hnew fun b hb c _ => hb.align c
  rcases mem_of_mem_place h with rfl | h
  · exact haligned
  · exact hfound a h

end Access

namespace Search

variable {s : Search} {k : Nat} {t : PlacedTable} {a : Access}

/-- **A search that nothing narrows down.** -/
structure IsFree (s : Search) : Prop where
  criteria_eq : s.criteria = []
  outer_eq : s.outer = []

theorem IsFree.usable_eq (h : s.IsFree) (k : Nat) (c : KeyColumn) : s.usable k c = [] := by
  simp only [usable, bounds, h.criteria_eq, h.outer_eq, List.append_nil, List.filter_nil, List.flatMap_eq_nil_iff.2,
    implies_true]

/-- There is nothing to search a key for. -/
theorem IsFree.byKey_eq (h : s.IsFree) (k : Nat) (key : Key) (columns : List KeyColumn) (p : Partial) :
    s.byKey k key columns p = [] := by
  cases columns with
  | nil => rfl
  | cons c columns =>
    rw [byKey, h.usable_eq k c]
    rfl

theorem isThrough_of_mem_along {i : KeyIndex} {rank : Nat} (ha : a ∈ s.along k t i (s.indexKey k t i rank)) :
    a.IsThrough := by
  unfold along at ha
  split at ha
  · cases ha
  · obtain rfl := List.mem_singleton.1 ha
    exact ⟨rfl, .inr ⟨i, rfl⟩⟩

theorem IsFree.isThrough_of_mem_direct (h : s.IsFree) (ha : a ∈ s.direct k t) : a.IsThrough := by
  simp only [direct, h.byKey_eq, List.append_nil, List.mem_append, List.mem_singleton, List.mem_flatten,
    List.mem_mapIdx] at ha
  rcases ha with rfl | ⟨ways, ⟨rank, hrank, rfl⟩, ha⟩
  · exact ⟨rfl, .inl rfl⟩
  · exact isThrough_of_mem_along ha

/-- **All ways of such a search go through all rows.** -/
theorem IsFree.isThrough_of_mem_ways (h : s.IsFree) (ha : a ∈ s.ways k t) : a.IsThrough := by
  obtain ⟨before, hways⟩ : ∃ before, s.ways k t =
      ((building { s with before } k t ++ direct { s with before } k t) ++
        byAlternatives 3 { s with before } k t).foldl Access.add [] := ⟨_, rfl⟩
  have hfree : IsFree { s with before } := ⟨h.criteria_eq, h.outer_eq⟩
  -- an index is built for a criterion, and alternatives are those of one
  have hbuilding : building { s with before } k t = [] := by
    rw [building, hfree.criteria_eq]
    rfl
  have halternatives : byAlternatives 3 { s with before } k t = [] := by
    rw [byAlternatives, hfree.criteria_eq]
    rfl
  rw [hways, hbuilding, halternatives, List.nil_append, List.append_nil] at ha
  refine List.foldlRecOn (motive := fun found => ∀ a ∈ found, a.IsThrough) _ Access.add nofun
    (fun found hfound new hnew a ha => ?_) a ha
  exact Access.isThrough_of_mem_add hfound (hfree.isThrough_of_mem_direct hnew) ha

end Search

namespace Route

variable {s : Search} {w : Wanted} {rows : Estimate} {r route : Route} {ways : List Access} {routes : List Route}

/-- **A route that takes given ways.** -/
def Takes (r : Route) (ways : List Access) : Prop := r.steps ⊆ ways

theorem Takes.extend? {a : Access} (h : r.Takes ways) (ha : a ∈ ways) (hr : extend? s w rows r a = some route) :
    route.Takes ways := by
  unfold Route.extend? at hr
  split at hr
  · cases hr
  · obtain rfl := Option.some.inj hr
    exact List.append_subset.2 ⟨h, List.cons_subset.2 ⟨ha, List.nil_subset ways⟩⟩

theorem mem_of_mem_keep {new : Route} (h : route ∈ keep s routes new) : route = new ∨ route ∈ routes := by
  unfold keep at h
  split at h
  · exact (List.mem_append.1 h).symm.imp_left List.mem_singleton.1
  · obtain ⟨i, hi⟩ := List.mem_iff_getElem?.1 h
    rw [List.getElem?_modify] at hi
    obtain ⟨old, hold, hkept⟩ := Option.map_eq_some_iff.1 hi
    have hmem : old ∈ routes := List.mem_of_getElem? hold
    -- the better one is left at the place of the old one
    split at hkept
    · split at hkept
      · exact .inl hkept.symm
      · exact .inr (hkept ▸ hmem)
    · exact .inr (hkept ▸ hmem)

theorem takes_of_mem_longer (h : ∀ r ∈ routes, r.Takes ways) (hr : route ∈ longer s w rows ways routes) :
    route.Takes ways := by
  refine List.foldlRecOn (motive := fun kept => ∀ r ∈ kept, r.Takes ways) _ (keep s) nofun
    (fun kept hkept new hnew r hr => ?_) route hr
  obtain ⟨old, hold, hnew⟩ := List.mem_flatMap.1 hnew
  obtain ⟨a, ha, hnew⟩ := List.mem_filterMap.1 hnew
  rcases mem_of_mem_keep hr with rfl | hr
  · exact (h old hold).extend? ha hnew
  · exact hkept r hr

theorem mem_of_cheapest (h : cheapest routes = some route) : route ∈ routes := by
  cases routes with
  | nil => cases h
  | cons r rest =>
    obtain rfl := Option.some.inj h
    refine List.foldlRecOn (motive := fun best => best ∈ r :: rest) rest _ List.mem_cons_self
      fun best hbest x hx => ?_
    split
    · exact List.mem_cons_of_mem r hx
    · exact hbest

/-- Of the ways to all tables, the best route takes one after the other. -/
theorem takes_of_best {count : Nat} (h : best s w rows count ways = some route) : route.Takes ways := by
  refine List.foldlRecOn (motive := fun routes => ∀ r ∈ routes, r.Takes ways) (List.range count) _ ?_
    (fun routes hroutes _ _ r hr => takes_of_mem_longer hroutes hr) route (mem_of_cheapest h)
  intro r hr
  rw [List.mem_singleton.1 hr]
  exact List.nil_subset ways

/-- **A route that no order is wanted of** takes the ways that there are. -/
theorem takes_of_ofSearch {tables : List (Nat × PlacedTable)} (hkeys : w.keys = [])
    (h : ofSearch s w tables = some route) : route.Takes (tables.flatMap fun (k, t) => s.ways k t) := by
  unfold ofSearch at h
  obtain ⟨first, hfirst, h⟩ := Option.bind_eq_some_iff.1 h
  rw [hkeys] at h
  obtain rfl := Option.some.inj h
  have htaken : first.Takes (tables.flatMap fun (k, t) => s.ways k t) := takes_of_best hfirst
  exact htaken

end Route

namespace Question

/-- **A visit to all rows** of a table comes to each of them. -/
theorem exists_key?_along (args cells : List Value) (places : List (Nat × Bool)) :
    ∃ key, (Visit.along places []).key? args cells = .ok (some key) := ⟨_, rfl⟩

/-- The visit that such a way is. -/
theorem visit_of_isThrough {a : Access} (h : a.IsThrough) (fuel : Nat) (q : Question) (s : Search) (visited : List Nat)
    (isReversed : Bool) (t : PlacedTable) : ∃ places, visit fuel q s visited isReversed t a = .along places [] := by
  cases fuel with
  | zero => exact ⟨[], rfl⟩
  | succ fuel =>
    rcases h.way_eq with hway | ⟨i, hway⟩ <;> rw [visit, hway] <;> exact ⟨_, rfl⟩

theorem mem_visits {q : Question} {s : Search} {reversed visited : List Nat} {steps : List Access} {v : Visit × Bool}
    (h : v ∈ q.visits s reversed visited steps) : ∃ a ∈ steps, ∃ visited isReversed t,
      v.1 = visit 3 q s visited isReversed t a := by
  induction steps generalizing visited with
  | nil => cases h
  | cons a rest ih =>
    rw [visits] at h
    rcases List.mem_append.1 h with h | h
    · split at h
      · rw [List.mem_singleton.1 h]
        exact ⟨a, List.mem_cons_self, _, _, _, rfl⟩
      · cases h
    · obtain ⟨b, hb, hvisit⟩ := ih h
      exact ⟨b, List.mem_cons_of_mem a hb, hvisit⟩

/-- **The plan for a question without conditions** and without an order only has
visits to all rows. -/
theorem plan_of_free {q : Question} (hconditions : q.conditions = []) (hkeys : q.wanted.keys = []) :
    ∀ v ∈ q.plan.visits, ∃ places, v.1 = .along places [] := by
  have hfree : (q.search [] q.conditions q.wanted).IsFree := by
    rw [hconditions]
    exact ⟨rfl, rfl⟩
  intro v hv
  unfold plan at hv
  dsimp only at hv
  split at hv
  · cases hv
  case h_2 route hroute =>
    obtain ⟨a, ha, visited, isReversed, t, hvisit⟩ := mem_visits hv
    have htaken := Route.takes_of_ofSearch hkeys hroute ha
    obtain ⟨⟨k, u⟩, -, hway⟩ := List.mem_flatMap.1 htaken
    obtain ⟨places, hplaces⟩ := visit_of_isThrough (hfree.isThrough_of_mem_ways hway) 3 q
      (q.search [] q.conditions q.wanted) visited isReversed t
    exact ⟨places, hvisit.trans hplaces⟩

end Question

namespace Plan

variable {p : Plan} {args : List Value}

/-- **A plan that finds every row.** -/
def FindsAll (p : Plan) : Prop := ∀ v ∈ p.visits, ∃ places, v.1 = .along places []

theorem FindsAll.exists_key? (h : p.FindsAll) (args cells : List Value) :
    ∃ key, p.key? args cells = .ok (some key) := by
  obtain ⟨visits, isOrdered⟩ := p
  -- by induction on the visits: each has a key of its own, so there is one of all of them
  have hkeys : ∃ keys key, visits.mapM (fun v : Visit × Bool => do
      let key ← v.1.key? args cells
      return if v.2 then some (key.getD []) else key) = Except.ok keys ∧ keys.mapM id = some key := by
    induction visits with
    | nil => exact ⟨[], [], rfl, rfl⟩
    | cons v visits ih =>
      obtain ⟨keys, key, hkeys, hkey⟩ := ih fun u hu => h u (List.mem_cons_of_mem v hu)
      obtain ⟨places, hplaces⟩ := h v List.mem_cons_self
      obtain ⟨own, hown⟩ := Question.exists_key?_along args cells places
      refine ⟨some own :: keys, own :: key, ?_, ?_⟩
      · rw [List.mapM_cons, hplaces, hown, hkeys]
        rcases v.2 with _ | _ <;> rfl
      · rw [List.mapM_cons, hkey]
        rfl
  obtain ⟨keys, key, hkeys, hkey⟩ := hkeys
  refine ⟨key, ?_⟩
  rw [key?, ← hkey]
  exact congrArg (fun found => found >>= fun keys => pure (keys.mapM id)) hkeys

/-- **What finds every row arranges as many as there are.** -/
theorem FindsAll.exists_arrange (h : p.FindsAll) (args : List Value) (rows : List (List Value)) :
    ∃ arranged, p.arrange args rows = .ok arranged ∧ arranged.length = rows.length := by
  -- every row has a key, so none is left out before they are sorted
  have hkeyed : ∃ keyed : List (List (List (Value × Bool)) × List Value),
      rows.mapM (fun cells => do return (← p.key? args cells).map (·, cells)) = Except.ok (keyed.map some) ∧
        keyed.length = rows.length := by
    induction rows with
    | nil => exact ⟨[], rfl, rfl⟩
    | cons cells rows ih =>
      obtain ⟨keyed, hkeyed, hlength⟩ := ih
      obtain ⟨key, hkey⟩ := h.exists_key? args cells
      refine ⟨(key, cells) :: keyed, ?_, congrArg (· + 1) hlength⟩
      rw [List.mapM_cons, hkey, hkeyed]
      rfl
  obtain ⟨keyed, hkeyed, hlength⟩ := hkeyed
  refine ⟨(keyed.mergeSort fun a b => compare a.1 b.1 != .gt).map (·.2), ?_, ?_⟩
  · rw [arrange, hkeyed]
    simp only [bind, Except.bind, pure, Except.pure, List.filterMap_map, Function.id_comp, List.filterMap_some]
  · rw [List.length_map, List.length_mergeSort, hlength]

end Plan

end TypedTables
