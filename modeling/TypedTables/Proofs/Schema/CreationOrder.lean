import Mathlib.Data.Fintype.Pigeonhole
import Mathlib.Data.List.Nodup
import Mathlib.Data.List.Perm.Basic
import Mathlib.Logic.Relation
import Mathlib.Tactic.Common
import TypedTables.Proofs.Database.Atomicity
import TypedTables.Schema.CreationOrder
/-!
# TypedTables — how models are placed

`Places` is one step after the other of the creation order: the first pending
model that is ready is placed, or the first of all where none is. What a step
keeps, the whole order has; the first of these is that every model is placed,
and none twice.
-/

namespace TypedTables

namespace Model

/-- **How pending models are placed**, behind those that are placed already. -/
inductive Places : List Model → List Model → List Model → Prop
  /-- Nothing is pending. -/
  | nil {placed : List Model} : Places placed [] []
  /-- The first model that is ready comes next. -/
  | ready {placed before after order : List Model} {m : Model} :
      isReady placed (before ++ m :: after) m = true →
      (∀ p ∈ before, isReady placed (before ++ m :: after) p = false) →
      Places (placed ++ [m]) (before ++ after) order →
      Places placed (before ++ m :: after) (m :: order)
  /-- None is ready, so the first of all comes next. -/
  | stuck {placed after order : List Model} {m : Model} :
      (∀ p ∈ m :: after, isReady placed (m :: after) p = false) →
      Places (placed ++ [m]) after order → Places placed (m :: after) (m :: order)

/-- **Models are placed as the steps say**, by induction on how many there are. -/
theorem places_arrange {n : Nat} {placed pending : List Model} (h : pending.length ≤ n) :
    Places placed pending (arrange n placed pending) := by
  induction n generalizing placed pending with
  | zero =>
    rw [List.length_eq_zero_iff.1 (Nat.le_zero.1 h)]
    exact .nil
  | succ n ih =>
    rcases pending with _ | ⟨first, rest⟩
    · exact .nil
    unfold arrange
    rcases hfind : (first :: rest).find? (isReady placed (first :: rest)) with _ | m
    · simp only [hfind]
      exact .stuck (by simpa using List.find?_eq_none.1 hfind) (ih (Nat.le_of_succ_le_succ h))
    · -- what is taken is what is removed: the first model that is ready
      simp only [hfind]
      obtain ⟨hready, before, after, heq, hbefore⟩ := List.find?_eq_some_iff_append.1 hfind
      have hbefore : ∀ p ∈ before, isReady placed (first :: rest) p = false :=
        fun p hp => by simpa using hbefore p hp
      have herase : (first :: rest).eraseP (isReady placed (first :: rest)) = before ++ after := by
        generalize isReady placed (first :: rest) = ready at hbefore hready
        rw [heq, List.eraseP_append_right _ (fun p hp => by simp [hbefore p hp]),
          List.eraseP_cons_of_pos hready]
      rw [herase]
      rw [heq] at h hready hbefore ⊢
      refine .ready hready hbefore (ih ?_)
      rw [List.length_append, List.length_cons] at h
      rw [List.length_append]
      omega

theorem places_creationOrder (models : List Model) : Places [] models (creationOrder models) :=
  places_arrange (Nat.le_refl _)

theorem Places.perm {placed pending order : List Model} (h : Places placed pending order) :
    order.Perm pending := by
  induction h with
  | nil => exact .refl _
  | ready _ _ _ ih => exact (ih.cons _).trans List.perm_middle.symm
  | stuck _ _ ih => exact ih.cons _

/-- **The creation order is a rearrangement of the models.** -/
theorem creationOrder_perm (models : List Model) : (creationOrder models).Perm models :=
  (places_creationOrder models).perm

end Model

/-! ## Tables after the tables they refer to

Foreign keys make a graph of the models of a list. The creation order puts each
model behind those it refers to, unless its references lead to a cycle: only
then can it happen that no pending model is ready. Where there is no cycle it is
the first of all orders that do so, and tables that are dropped from its end on
never leave a reference behind. -/

open scoped List
open Connection

namespace Model

/-- **A model refers to another one** of a list: a foreign key of the first has
the table of the second as its target. References of a table to itself, and to
tables outside the list, do not count. -/
structure RefersTo (models : List Model) (m t : Model) : Prop where
  left_mem : m ∈ models
  right_mem : t ∈ models
  exists_key : ∃ fk ∈ m.foreignKeys, fk.targetTable = t.tableName
  ne : t.tableName ≠ m.tableName

/-- The references of a model lead to a cycle. As no model refers to itself, a
cycle has two models at least. -/
def LeadsToCycle (models : List Model) (m : Model) : Prop :=
  ∃ c, Relation.ReflTransGen (RefersTo models) m c ∧ Relation.TransGen (RefersTo models) c c

/-- **An order of the models with every target before what refers to it.** -/
structure IsDependencyOrder (models order : List Model) : Prop where
  perm : order.Perm models
  target_first : ∀ m t, RefersTo models m t → [t, m] <+ order

/-- **Tables are dropped safely**: when one is dropped, none that refers to it
is still to be dropped. -/
def DropsSafely (models : List Model) (drops : List String) : Prop :=
  ∀ m t, RefersTo models m t → ∀ before after, drops = before ++ t.tableName :: after → m.tableName ∉ after

/-- Of two different things in a list only one stands before the other. -/
theorem not_sublist_swap {α : Type} {l : List α} {a b : α} (hl : l.Nodup) (h : [a, b] <+ l) :
    ¬ [b, a] <+ l := by
  induction l with
  | nil => cases h
  | cons x l ih =>
    obtain ⟨hx, hl⟩ := List.nodup_cons.1 hl
    intro hswap
    cases h with
    | cons _ h =>
      cases hswap with
      | cons _ hswap => exact ih hl h hswap
      | cons_cons _ _ => exact hx (h.subset (List.mem_cons_of_mem _ List.mem_cons_self))
    | cons_cons _ h =>
      cases hswap with
      | cons _ hswap => exact hx (hswap.subset (List.mem_cons_of_mem _ List.mem_cons_self))
      | cons_cons _ _ => exact hx (h.subset List.mem_cons_self)

variable {models placed pending order : List Model} {m t : Model}

/-! ### Cycles -/

/-- **Where everyone refers to someone, there is a cycle.** Whoever is followed
from one reference to the next comes by some model twice. -/
theorem leadsToCycle_of_forall (h : ∀ m ∈ pending, ∃ t ∈ pending, RefersTo models m t) (hm : m ∈ pending) :
    LeadsToCycle models m := by
  choose next hnext using fun m : { m // m ∈ pending } => h m.1 m.2
  let follow : { m // m ∈ pending } → { m // m ∈ pending } := fun m => ⟨next m, (hnext m).1⟩
  have hpath (m : { m // m ∈ pending }) (n : ℕ) : Relation.ReflTransGen (RefersTo models) m.1 (follow^[n] m).1 := by
    induction n with
    | zero => exact .refl
    | succ n ih =>
      rw [Function.iterate_succ_apply']
      exact ih.tail (hnext (follow^[n] m)).2
  obtain ⟨i, j, hij, hsame⟩ := Finite.exists_ne_map_eq_of_infinite fun n => follow^[n] ⟨m, hm⟩
  wlog hlt : i < j generalizing i j
  · exact this j i hij.symm hsame.symm (lt_of_le_of_ne (not_lt.1 hlt) hij.symm)
  refine ⟨_, hpath ⟨m, hm⟩ i, ?_⟩
  obtain ⟨k, rfl⟩ := Nat.exists_eq_add_of_lt hlt
  have hback : follow^[k + 1] (follow^[i] ⟨m, hm⟩) = follow^[i] ⟨m, hm⟩ := by
    rw [← Function.iterate_add_apply, Nat.add_comm, ← Nat.add_assoc]
    exact hsame.symm
  have hfirst := (hnext (follow^[i] ⟨m, hm⟩)).2
  have hrest := hpath (follow (follow^[i] ⟨m, hm⟩)) k
  rw [← Function.iterate_succ_apply, hback] at hrest
  exact .head' hfirst hrest

/-- A number that shrinks from a model to whatever it refers to rules out cycles. -/
theorem not_leadsToCycle_of_rank (rank : Model → ℕ) (hrank : ∀ m t, RefersTo models m t → rank t < rank m)
    (m : Model) : ¬ LeadsToCycle models m := by
  rintro ⟨c, -, hcycle⟩
  have hless {t : Model} (h : Relation.TransGen (RefersTo models) c t) : rank t < rank c := by
    induction h with
    | single href => exact hrank _ _ href
    | tail _ href ih => exact (hrank _ _ href).trans ih
  exact lt_irrefl _ (hless hcycle)

/-! ### One step -/

/-- How far the placing has come: the pending models stand as they did. -/
structure IsStage (models placed pending : List Model) : Prop where
  perm : (placed ++ pending).Perm models
  sublist : pending <+ models

theorem IsStage.next {before after : List Model} (h : IsStage models placed (before ++ m :: after)) :
    IsStage models (placed ++ [m]) (before ++ after) where
  perm := by
    rw [List.append_assoc]
    have hmiddle : (m :: (before ++ after)).Perm (before ++ m :: after) := List.perm_middle.symm
    exact (hmiddle.append_left placed).trans h.perm
  sublist := ((List.sublist_cons_self m after).append_left before).trans h.sublist

theorem IsStage.mem_iff (h : IsStage models placed pending) : m ∈ models ↔ m ∈ placed ∨ m ∈ pending := by
  rw [← h.perm.mem_iff, List.mem_append]

section Step

variable (hnames : (models.map (·.tableName)).Nodup)
include hnames

/-- **A model is ready** just if all that it refers to is placed. -/
theorem isReady_iff (h : IsStage models placed pending) (hm : m ∈ pending) :
    isReady placed pending m = true ↔ ∀ t, RefersTo models m t → t ∈ placed := by
  have hmodel := h.mem_iff.2 (.inr hm)
  simp only [isReady, anyTable, List.all_eq_true, Bool.or_eq_true, beq_iff_eq, List.any_eq_true,
    Bool.not_eq_true', List.any_eq_false]
  constructor
  · rintro hready t ⟨-, ht, ⟨fk, hfk, htarget⟩, hne⟩
    rcases hready fk hfk with (hown | ⟨t', ht', htable⟩) | hnone
    · exact absurd (htarget.symm.trans hown) hne
    · have hsame := List.inj_on_of_nodup_map hnames (h.mem_iff.2 (.inl ht')) ht (htable.trans htarget)
      exact hsame ▸ ht'
    · exact (h.mem_iff.1 ht).resolve_right fun hpending => hnone t hpending htarget.symm
  · intro hplaced fk hfk
    by_cases hown : fk.targetTable = m.tableName
    · exact .inl (.inl hown)
    by_cases hpending : ∃ t ∈ pending, t.tableName = fk.targetTable
    · obtain ⟨t, ht, htable⟩ := hpending
      have href : RefersTo models m t :=
        ⟨hmodel, h.mem_iff.2 (.inr ht), ⟨fk, hfk, htable.symm⟩, fun he => hown (htable ▸ he)⟩
      exact .inl (.inr ⟨t, hplaced t href, htable⟩)
    · exact .inr fun t ht htable => hpending ⟨t, ht, htable⟩

/-- **If none is ready, everyone's references lead to a cycle.** -/
theorem leadsToCycle_of_stuck (h : IsStage models placed pending)
    (hstuck : ∀ p ∈ pending, isReady placed pending p = false) (hm : m ∈ pending) :
    LeadsToCycle models m := by
  refine leadsToCycle_of_forall (fun p hp => ?_) hm
  have hnot : ¬ ∀ t, RefersTo models p t → t ∈ placed := by
    rw [← isReady_iff hnames h hp, hstuck p hp]
    exact Bool.false_ne_true
  obtain ⟨t, ht⟩ := not_forall.1 hnot
  obtain ⟨href, hplaced⟩ := Classical.not_imp.1 ht
  exact ⟨t, (h.mem_iff.1 href.right_mem).resolve_left hplaced, href⟩

/-! ### The whole order -/

/-- **Targets come first**, by induction on the steps: what a model refers to is
placed before it, or the model was placed when none was ready. -/
theorem Places.target_first (h : Places placed pending order) (hstage : IsStage models placed pending)
    (hm : m ∈ pending) (href : RefersTo models m t) :
    t ∈ placed ∨ [t, m] <+ order ∨ LeadsToCycle models m := by
  -- a model that stays pending has its target before it in the rest, or right here
  have hlater {placed order : List Model} {first : Model} (hrest : m ∈ order)
      (ih : t ∈ placed ++ [first] ∨ [t, m] <+ order ∨ LeadsToCycle models m) :
      t ∈ placed ∨ [t, m] <+ first :: order ∨ LeadsToCycle models m := by
    rcases ih with ht | hsub | hcycle
    · rcases List.mem_append.1 ht with ht | ht
      · exact .inl ht
      · rw [List.mem_singleton.1 ht]
        exact .inr (.inl ((List.singleton_sublist.2 hrest).cons_cons first))
    · exact .inr (.inl (hsub.cons first))
    · exact .inr (.inr hcycle)
  induction h with
  | nil => cases hm
  | @ready placed before after order first hready _ hrest ih =>
    by_cases hfirst : m = first
    · subst hfirst
      exact .inl ((isReady_iff hnames hstage hm).1 hready t href)
    · have hm : m ∈ before ++ after := by
        rcases List.mem_append.1 hm with hm | hm
        · exact List.mem_append_left _ hm
        · exact List.mem_append_right _ ((List.mem_cons.1 hm).resolve_left hfirst)
      exact hlater (hrest.perm.mem_iff.2 hm) (ih hstage.next hm)
  | @stuck placed after order first hstuck hrest ih =>
    exact .inr (.inr (leadsToCycle_of_stuck hnames hstage hstuck hm))

/-- Where every target comes first, the first of all models is ready. -/
theorem isReady_head {head : Model} {rest : List Model} (hstage : IsStage models placed pending)
    (hperm : (head :: rest).Perm pending)
    (horder : ∀ t, RefersTo models head t → t ∈ placed ∨ [t, head] <+ head :: rest) :
    isReady placed pending head = true := by
  have hnodup : (head :: rest).Nodup :=
    hperm.nodup_iff.2 (hstage.sublist.nodup (List.Nodup.of_map _ hnames))
  refine (isReady_iff hnames hstage (hperm.mem_iff.1 List.mem_cons_self)).2 fun t href => ?_
  refine (horder t href).resolve_right fun hsub => (List.nodup_cons.1 hnodup).1 ?_
  cases hsub with
  | cons _ hsub => exact hsub.subset (List.mem_cons_of_mem _ List.mem_cons_self)
  | cons_cons _ hsub => exact hsub.subset List.mem_cons_self

/-- **No other order with every target first comes before the one in which the
models are placed.** What such an order begins with is ready, so the model that
is placed is this one, or stands before it in the list. -/
theorem Places.le_of_target_first (h : Places placed pending order) (hstage : IsStage models placed pending)
    {other : List Model} (hperm : other.Perm pending)
    (hother : ∀ m ∈ pending, ∀ t, RefersTo models m t → t ∈ placed ∨ [t, m] <+ other) :
    other = order ∨ List.Lex (fun a b => [a, b] <+ models) order other := by
  induction h generalizing other with
  | nil => exact .inl hperm.eq_nil
  | @ready placed before after order first hready hbefore hrest ih =>
    rcases other with _ | ⟨head, rest⟩
    · exact absurd hperm.symm.eq_nil (by simp)
    have hhead : head ∈ before ++ first :: after := hperm.mem_iff.1 List.mem_cons_self
    have hheadReady := isReady_head hnames hstage hperm (hother head hhead)
    by_cases hsame : head = first
    · -- the same model comes first, and the rest is compared by induction
      subst hsame
      refine (ih hstage.next (hperm.trans List.perm_middle).cons_inv fun m hm t href => ?_).imp
        (congrArg (head :: ·)) .cons
      have hm' : m ∈ before ++ head :: after :=
        ((List.sublist_cons_self head after).append_left before).subset hm
      rcases hother m hm' t href with ht | hsub
      · exact .inl (List.mem_append_left _ ht)
      · cases hsub with
        | cons _ hsub => exact .inr hsub
        | cons_cons _ _ => exact .inl (List.mem_append_right _ (List.mem_singleton_self _))
    · -- it stands behind the model that is placed, as none before that one is ready
      have hafter : head ∈ after := by
        rcases List.mem_append.1 hhead with hmem | hmem
        · rw [hbefore head hmem] at hheadReady
          cases hheadReady
        · exact (List.mem_cons.1 hmem).resolve_left hsame
      have hsub : [first, head] <+ first :: after := (List.singleton_sublist.2 hafter).cons_cons first
      exact .inr (.rel ((hsub.trans (List.sublist_append_right before _)).trans hstage.sublist))
  | @stuck placed after order first hstuck hrest ih =>
    rcases other with _ | ⟨head, rest⟩
    · exact absurd hperm.symm.eq_nil (by simp)
    have hhead : head ∈ first :: after := hperm.mem_iff.1 List.mem_cons_self
    have hready := isReady_head hnames hstage hperm (hother head hhead)
    -- what the other order begins with would be ready, and nothing is
    rw [hstuck head hhead] at hready
    cases hready

end Step

/-! ### The order in which tables are dropped -/

/-- **From the end of a dependency order on, tables are dropped safely.** -/
theorem IsDependencyOrder.dropsSafely (hnames : (models.map (·.tableName)).Nodup)
    (h : IsDependencyOrder models order) : DropsSafely models (order.map (·.tableName)).reverse := by
  intro m t href before after hdrops hlater
  have hnodup : (order.map (·.tableName)).reverse.Nodup :=
    List.nodup_reverse.2 ((h.perm.map _).nodup_iff.2 hnames)
  have hfirst : [m.tableName, t.tableName] <+ (order.map (·.tableName)).reverse := by
    have hsub := (h.target_first m t href).map (·.tableName)
    exact hsub.reverse
  refine not_sublist_swap hnodup hfirst ?_
  rw [hdrops]
  exact ((List.singleton_sublist.2 hlater).cons_cons t.tableName).trans (List.sublist_append_right before _)

end Model

open Model

/-- **Tables come after the tables they refer to.** The creation order has every
model once, and each of them behind what it refers to unless its references lead
to a cycle. Where there is no cycle it is such an order throughout, and of all
of them the first one, by the places of the models in the list. Then the tables
of the plan are dropped safely too, on every engine: if they are dropped at all,
it is by one statement for each in that order. -/
theorem creation_order_follows_references {models : List Model}
    (hnames : (models.map (·.tableName)).Nodup) :
    (creationOrder models).Perm models ∧
    (∀ m t, RefersTo models m t → [t, m] <+ creationOrder models ∨ LeadsToCycle models m) ∧
    ((∀ m, ¬ LeadsToCycle models m) →
      IsDependencyOrder models (creationOrder models) ∧
      (∀ other, IsDependencyOrder models other → other = creationOrder models ∨
        List.Lex (fun a b => [a, b] <+ models) (creationOrder models) other) ∧
      ∀ (options : DdlOptions) {δ : Type} (e : Engine δ),
        let plan := SchemaPlan.ofModels models options
        let drops := plan.tables.reverse
        drops.Perm (models.map (·.tableName)) ∧ DropsSafely models drops ∧
        ((∀ name ∈ plan.tables, Identifier.isValid name = true) →
          e.AllOrNothing (Migration.down e plan) e.script (drops.map dropTable) (fun _ => ()) .notDropped
            DatabaseError.ofFault) ∧
        ((∃ name ∈ plan.tables, Identifier.isValid name = false) →
          ∃ fault, ∀ c, Migration.down e plan c = (.error fault, c))) := by
  have hplaces := places_creationOrder models
  have hstage : IsStage models [] models := ⟨.refl _, .refl _⟩
  have hfirst (m t : Model) (href : RefersTo models m t) :
      [t, m] <+ creationOrder models ∨ LeadsToCycle models m :=
    (hplaces.target_first hnames hstage href.left_mem href).resolve_left List.not_mem_nil
  refine ⟨hplaces.perm, hfirst, fun hnone => ?_⟩
  have horder : IsDependencyOrder models (creationOrder models) :=
    ⟨hplaces.perm, fun m t href => (hfirst m t href).resolve_right (hnone m)⟩
  refine ⟨horder, fun other hother => ?_, fun options δ e => ⟨?_, horder.dropsSafely hnames, ?_, ?_⟩⟩
  · exact hplaces.le_of_target_first hnames hstage hother.perm
      fun m _ t href => .inr (hother.target_first m t href)
  · exact (List.reverse_perm _).trans (hplaces.perm.map _)
  · exact Migration.allOrNothing_down
  · intro hinvalid
    obtain ⟨name, -, -, hrefused⟩ := Migration.exists_refusal e hinvalid
    exact ⟨_, fun c => (hrefused c).2.1⟩

/-- Tags, which stand alone, and reviews of books, some of which continue others
and all of which have authors. -/
def shelfModels : List Model :=
  let model (name table : String) (keys : List ForeignKey) : Model :=
    { name, tableName := table, packagePath := "crate::shelf", fields := [], foreignKeys := keys,
      provider := ⟨"shelf", .local, none, .projection⟩ }
  [model "Review" "reviews" [⟨"book_id", "books", "id"⟩], model "Tag" "tags" [],
    model "Book" "books" [⟨"author_id", "authors", "id"⟩, ⟨"sequel_of", "books", "id"⟩],
    model "Author" "authors" []]

/-- The tags stay in front of the books, which wait for their authors. -/
theorem creation_order_follows_references_shelf :
    (shelfModels.map (·.tableName)).Nodup ∧ (∀ m, ¬ LeadsToCycle shelfModels m) ∧
      (creationOrder shelfModels).map (·.tableName) = ["tags", "authors", "books", "reviews"] ∧
      DropsSafely shelfModels ["reviews", "books", "authors", "tags"] ∧
      ∀ other, IsDependencyOrder shelfModels other → other = creationOrder shelfModels ∨
        List.Lex (fun a b => [a, b] <+ shelfModels) (creationOrder shelfModels) other := by
  have hnames : (shelfModels.map (·.tableName)).Nodup := by decide
  let rank (m : Model) : ℕ := ["authors", "books", "reviews"].idxOf m.tableName
  have hless : ∀ m ∈ shelfModels, ∀ t ∈ shelfModels, (∃ fk ∈ m.foreignKeys, fk.targetTable = t.tableName) →
      t.tableName ≠ m.tableName → rank t < rank m := by decide
  have hnone := not_leadsToCycle_of_rank rank fun m t href =>
    hless m href.left_mem t href.right_mem href.exists_key href.ne
  obtain ⟨-, -, hacyclic⟩ := creation_order_follows_references hnames
  obtain ⟨-, hleast, hdrops⟩ := hacyclic hnone
  have hplan : (SchemaPlan.ofModels shelfModels {}).tables.reverse = ["reviews", "books", "authors", "tags"] := by
    decide +kernel
  refine ⟨hnames, hnone, by decide +kernel, ?_, hleast⟩
  rw [← hplan]
  exact (hdrops {} Engine.embedded).2.1

end TypedTables
