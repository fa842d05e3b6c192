import Mathlib.Data.List.Nodup
import QueryCompiler.Proofs.Isolation.Moments
import QueryCompiler.Proofs.Relabelling.Compile

/-! # `QueryCompiler.Proofs.Filters.Conjuncts` — conditions that hold together

Several conditions are joined to one in two ways.  A statement that changes rows nests them to the
left, the filters of a query are fused to the right:

    ((p₁ and p₂) and p₃)      identities  p₁ p₂ and p₃ and
    (p₁ and (p₂ and p₃))      identities  p₁ p₂ p₃ and and

Both are built of the same expressions and written from the same list of written forms.  They differ
in the turns at which the nodes between the conditions get their identities.  A node that has just
been built is registered nowhere and stays so, and then it is written by its operands.
-/

namespace QueryCompiler

open CompileM

/-! ## Identities that are taken -/

/-- What is made of identities has those, or such as were there before. -/
theorem Build.Makes.mem_ids {α : Type} {b : Build α} {ids : List NodeId} {a : α}
    {leaves : α → List Expr} {old : NodeId → Prop} (h : b.Makes ids a)
    (hdraws : ∀ s, b.Draws old s leaves) : ∀ e ∈ leaves a, ∀ id ∈ e.ids, old id ∨ id ∈ ids := by
  obtain ⟨-, hholds⟩ := hdraws (Supply.listing ids)
  rw [h _ (Supply.next_listing ids)] at hholds
  intro e he id hid
  rcases hholds e he id hid with hold | ⟨n, hn, rfl⟩
  · exact .inl hold
  · have hn : n < ids.length := by simpa [Supply.skip, Supply.listing] using hn
    have hget : ((Supply.listing ids).skip ids.length).ids n = ids.get ⟨n, hn⟩ := by
      simp [Supply.skip, Supply.listing, hn]
    exact .inr (hget ▸ List.get_mem ids ⟨n, hn⟩)

theorem ExprTerm.mem_ids_of_makes {p : ExprTerm} {scope : Scope} {ids : List NodeId} {e : Expr}
    (h : (p.eval scope).Makes ids e) : ∀ id ∈ e.ids, id ∈ scope.ids ∨ id ∈ ids :=
  h.mem_ids (fun _ => p.eval_draws (Supply.holds_leaves.2 fun _ hid => .inl hid)) e
    List.mem_cons_self

theorem Table.mem_ids_of_makes {t : Table} {ids : List NodeId} {columns : List Expr}
    (h : t.instantiate.Makes ids columns) : ∀ c ∈ columns, ∀ id ∈ c.ids, id ∈ ids := by
  intro c hc id hid
  have hdraws : ∀ s, Build.Draws (fun _ => False) s (fun es => es) t.instantiate :=
    fun _ => Table.columnNodes_draws t.name t.columns
  exact (h.mem_ids hdraws c hc id hid).resolve_left not_false

/-! ## The two nestings -/

def ExprTerm.rightNested : ExprTerm → List ExprTerm → ExprTerm
  | p, [] => p
  | p, p' :: ps => .binary .and p (ExprTerm.rightNested p' ps)

def Sql.Scalar.leftward : List Sql.Scalar → Option Sql.Scalar
  | [] => none
  | t :: ts => some (ts.foldl (.binary .and) t)

def Sql.Scalar.rightNested : Sql.Scalar → List Sql.Scalar → Sql.Scalar
  | t, [] => t
  | t, t' :: ts => .binary .and t (Sql.Scalar.rightNested t' ts)

def Sql.Scalar.rightward : List Sql.Scalar → Option Sql.Scalar
  | [] => none
  | t :: ts => some (Sql.Scalar.rightNested t ts)

/-- A condition behind another one, with the identities of its nodes and that of the node by which
it is joined. -/
structure Conjunct where
  expr : Expr
  ids : List NodeId
  link : NodeId

namespace Conjunct

def leftNested : Expr → List Conjunct → Expr
  | e, [] => e
  | e, c :: cs => leftNested (.binary c.link .and e c.expr) cs

def rightNested : Expr → List Conjunct → Expr
  | e, [] => e
  | e, c :: cs => .binary c.link .and e (rightNested c.expr cs)

/-- The identities in the order in which nodes nested to the left take them. -/
def leftIds : List Conjunct → List NodeId
  | [] => []
  | c :: cs => (c.ids ++ [c.link]) ++ leftIds cs

/-- The identities in the order in which nodes nested to the right take them. -/
def rightIds : List Conjunct → List NodeId
  | [] => []
  | c :: cs => c.ids ++ (rightIds cs ++ [c.link])

theorem leftIds_perm (cs : List Conjunct) :
    (leftIds cs).Perm (cs.flatMap (·.ids) ++ cs.map (·.link)) := by
  induction cs with
  | nil => exact .nil
  | cons c cs ih =>
      simp only [leftIds, List.flatMap_cons, List.map_cons, List.append_assoc,
        List.singleton_append]
      refine .append_left _ ((ih.cons c.link).trans ?_)
      exact List.perm_middle.symm

theorem rightIds_perm (cs : List Conjunct) :
    (rightIds cs).Perm (cs.flatMap (·.ids) ++ cs.map (·.link)) := by
  induction cs with
  | nil => exact .nil
  | cons c cs ih =>
      simp only [rightIds, List.flatMap_cons, List.map_cons, List.append_assoc]
      refine .append_left _ ((ih.append_right [c.link]).trans ?_)
      rw [List.append_assoc]
      exact .append_left _ (List.perm_append_singleton _ _)

/-! ## Building -/

/-- A condition and what it builds in a scope. -/
def Builds (scope : Scope) (p : ExprTerm) (c : Conjunct) : Prop :=
  (p.eval scope).Makes c.ids c.expr

variable {scope : Scope} {ps : List ExprTerm} {cs : List Conjunct}

theorem makes_leftNested (h : List.Forall₂ (Builds scope) ps cs) : ∀ {p : ExprTerm}
    {ids : List NodeId} {e : Expr}, (p.eval scope).Makes ids e →
      ((ps.foldl (.binary .and) p).eval scope).Makes (ids ++ leftIds cs) (leftNested e cs) := by
  induction h with
  | nil =>
      intro p ids e hp
      rwa [leftIds, List.append_nil]
  | @cons p' c ps cs hc _ ih =>
      intro p ids e hp
      have hjoined : ((ExprTerm.binary .and p p').eval scope).Makes (ids ++ (c.ids ++ [c.link]))
          (.binary c.link .and e c.expr) := hp.bind (hc.bind (.node _ c.link))
      rw [leftIds, ← List.append_assoc]
      exact ih hjoined

theorem makes_rightNested (h : List.Forall₂ (Builds scope) ps cs) : ∀ {p : ExprTerm}
    {ids : List NodeId} {e : Expr}, (p.eval scope).Makes ids e →
      ((p.rightNested ps).eval scope).Makes (ids ++ rightIds cs) (rightNested e cs) := by
  induction h with
  | nil =>
      intro p ids e hp
      rwa [rightIds, List.append_nil]
  | @cons p' c ps cs hc _ ih =>
      intro p ids e hp
      rw [rightIds, ← List.append_assoc c.ids]
      exact hp.bind ((ih hc).bind (.node _ c.link))

/-- The conditions that are built from a supply, when they are nested to the left. -/
theorem exists_leftNested (scope : Scope) (ps : List ExprTerm) (s : Supply) :
    ∃ cs, List.Forall₂ (Builds scope) ps cs ∧ s.next (leftIds cs).length = leftIds cs := by
  induction ps generalizing s with
  | nil => exact ⟨[], .nil, rfl⟩
  | cons p ps ih =>
      obtain ⟨k, hk⟩ := p.eval_settled scope s
      obtain ⟨cs, hcs, hids⟩ := ih (s.skip (k + 1))
      let c : Conjunct := ⟨(p.eval scope s).1, s.next k, (s.skip k).upcoming 0⟩
      have hc : s.next (k + 1) = c.ids ++ [c.link] := s.next_add k 1
      refine ⟨c :: cs, .cons hk hcs, ?_⟩
      rw [leftIds, List.length_append, ← hc, Supply.length_next, Supply.next_add, hids]

theorem exists_builds (h : List.Forall₂ (Builds scope) ps cs) : ∀ c ∈ cs, ∃ p, Builds scope p c := by
  induction h with
  | nil => exact List.forall_mem_nil _
  | @cons p c _ _ hc _ ih => exact List.forall_mem_cons.2 ⟨⟨p, hc⟩, ih⟩

end Conjunct

/-! ## Nodes that nothing knows of -/

/-- The node is neither registered nor still to be built, and in none of the expressions. -/
structure Unseen (ctx : Context) (s : Supply) (es : List Expr) (node : NodeId) : Prop where
  unregistered : ctx.referenceOf node = none
  spent : ∀ n, s.upcoming n ≠ node
  absent : ∀ e ∈ es, node ∉ e.ids

/-- The nodes between conditions have been built after all that is within reach and apart from the
conditions. -/
theorem Conjunct.links_unseen {outer inner : Scope} {known own : List NodeId} {s : Supply} {n : Nat}
    {ctx : Context} {p : ExprTerm} {e : Expr} {ps : List ExprTerm} {cs : List Conjunct}
    (h : FreshIds outer.ids s.upcoming) (hnext : s.next n = known ++ (own ++ leftIds cs))
    (hinner : ∀ id ∈ inner.ids, id ∈ outer.ids ∨ id ∈ known)
    (hctx : ∀ node ∉ known, ctx.referenceOf node = none)
    (hp : (p.eval inner).Makes own e) (hcs : List.Forall₂ (Builds inner) ps cs) :
    ∀ c ∈ cs, Unseen ctx (s.skip n) (e :: cs.map (·.expr)) c.link := by
  intro c hc
  have hperm : (s.next n).Perm (known ++ (own ++ (cs.flatMap (·.ids) ++ cs.map (·.link)))) :=
    hnext ▸ ((leftIds_perm cs).append_left own).append_left known
  have hlink : c.link ∈ cs.map (·.link) := List.mem_map_of_mem hc
  obtain ⟨m, hm, hlinkm⟩ : ∃ m < n, s.upcoming m = c.link := by
    have hmem := hperm.mem_iff.2 (List.mem_append_right _ (List.mem_append_right _
      (List.mem_append_right _ hlink)))
    obtain ⟨m, hm, hmn⟩ := List.mem_map.1 hmem
    exact ⟨m, List.mem_range.1 hm, hmn⟩
  have hnodup := hperm.nodup_iff.1 (List.nodup_range.map h.injective)
  obtain ⟨-, hnodup, hknown⟩ := List.nodup_append.1 hnodup
  obtain ⟨-, hnodup, hown⟩ := List.nodup_append.1 hnodup
  obtain ⟨-, -, hids⟩ := List.nodup_append.1 hnodup
  have hknown : c.link ∉ known := fun hmem =>
    hknown _ hmem _ (List.mem_append_right _ (List.mem_append_right _ hlink)) rfl
  have hreach : c.link ∉ inner.ids := fun hmem => (hinner _ hmem).elim (hlinkm ▸ h.new m) hknown
  refine ⟨hctx _ hknown, fun j hj => ?_,
    List.forall_mem_cons.2 ⟨fun hmem => ?_, fun e' he' hmem => ?_⟩⟩
  · rw [Supply.upcoming_skip, ← hlinkm] at hj
    have := h.injective hj
    omega
  · rcases ExprTerm.mem_ids_of_makes hp _ hmem with hscope | hmine
    · exact hreach hscope
    · exact hown _ hmine _ (List.mem_append_right _ hlink) rfl
  · obtain ⟨c', hc', rfl⟩ := List.mem_map.1 he'
    obtain ⟨p', hp'⟩ := exists_builds hcs c' hc'
    rcases ExprTerm.mem_ids_of_makes hp' _ hmem with hscope | htheirs
    · exact hreach hscope
    · exact hids _ (List.mem_flatMap.2 ⟨c', hc', htheirs⟩) _ hlink rfl

/-- A node that nothing knows of is not registered when an expression is compiled. -/
theorem Unseen.compile {depth : Nat} {ctx ctx' : Context} {s s' : Session} {e : Expr}
    {es : List Expr} {t : Sql.Scalar} {node : NodeId} (h : Unseen ctx s.supply (e :: es) node)
    (hok : outcome (e.compile (compileWithin depth)) ctx s = (.ok (t, ctx'), s')) :
    Unseen ctx' s'.supply es node := by
  -- the same run from a supply that has handed out nothing yet
  let s₀ : Session := { s with supply := ⟨s.supply.upcoming, 0⟩ }
  have hrun := e.compile_relabels (compileWithin_relabels depth) ctx ctx s s₀
    (.same rfl rfl (fun _ => rfl) rfl) rfl
  rw [hok] at hrun
  generalize hok₀ : outcome (e.compile (compileWithin depth)) ctx s₀ = r at hrun
  cases hrun with
  | @ok _ _ ctx₀ _ s₁ hctx hsupply =>
      let script : Script (fun _ => False) (e.compile (compileWithin depth)) :=
        e.script (compileWithin.script depth)
      have htakes : (e.compile (compileWithin depth)).Takes ⟨ctx, s₀⟩ _ ⟨ctx₀, s₁⟩ := hok₀
      have hprec := (script.precedes htakes).supply
      -- with all but this node there before, what is registered then is not this node
      have hkeeps : script.Keeps (· ≠ node) ⟨ctx, s₀⟩ fun _ => [] := by
        refine e.script_keeps (compileWithin.script_keeps depth) (.cons (fun j hj => .inl ?_) .nil)
        rintro rfl
        exact h.absent e List.mem_cons_self hj
      have hstart : (⟨ctx, s₀⟩ : Moment).Allocates (· ≠ node) := fun j hj => .inl (by
        rintro rfl
        exact Context.referenceOf_eq_none.1 h.unregistered hj)
      have hstop := (hkeeps hstart).1 _ (script.stop_mem_moments htakes)
      refine ⟨?_, fun n => ?_, fun e' he' => h.absent e' (List.mem_cons_of_mem _ he')⟩
      · by_contra hne
        obtain ⟨r, hr⟩ := Option.ne_none_iff_exists'.1 hne
        have hr₀ : ctx₀.referenceOf node = some (r.relabel id) := by rw [hctx.referenceOf_eq, hr]; rfl
        rcases hstop (Context.registered_of_referenceOf hr₀) with hself | ⟨n, -, hn⟩
        · exact hself rfl
        · exact h.spent n ((congrFun hprec.ids_eq n).symm.trans hn)
      · rw [← hsupply]
        show s₁.supply.ids (n + s₁.supply.used) ≠ node
        rw [hprec.ids_eq]
        exact h.spent _

/-! ## Compiling -/

section

variable {ctx : Context} {s : Session}

/-- A node between two operands that is not registered is written by them. -/
theorem Expr.outcome_binary {sub : SubqueryCompiler} {id : NodeId} {op : BinaryOp}
    {left right : Expr} (h : ctx.referenceOf id = none) :
    outcome ((Expr.binary id op left right).compile sub) ctx s =
      outcome (left.compile sub >>= fun l => right.compile sub >>= fun r =>
        pure (.binary op l r)) ctx s := by
  rw [Expr.compile, outcome_registeredOr, h]

namespace Conjunct

/-- All nodes between conditions nested to the left are looked up before anything is compiled. -/
theorem outcome_leftNested {sub : SubqueryCompiler} {cs : List Conjunct}
    (h : ∀ c ∈ cs, ctx.referenceOf c.link = none) (e : Expr) :
    outcome ((leftNested e cs).compile sub) ctx s =
      outcome (e.compile sub >>= fun t => Expr.compileAll sub (cs.map (·.expr)) >>= fun ts =>
        pure (ts.foldl (.binary .and) t)) ctx s := by
  induction cs generalizing e with
  | nil =>
      simp only [leftNested, List.map_nil, Expr.compileAll, pure_bind, List.foldl_nil, bind_pure]
  | cons c cs ih =>
      obtain ⟨hc, hcs⟩ := List.forall_mem_cons.1 h
      rw [leftNested, ih hcs, outcome_bind_congr (Expr.outcome_binary hc)]
      simp only [List.map_cons, Expr.compileAll, bind_assoc, pure_bind, List.foldl_cons]

/-- A node between conditions nested to the right is looked up behind those before it, which do not
register it. -/
theorem outcome_rightNested {depth : Nat} {cs : List Conjunct} {e : Expr}
    (h : ∀ c ∈ cs, Unseen ctx s.supply (e :: cs.map (·.expr)) c.link) :
    outcome ((rightNested e cs).compile (compileWithin depth)) ctx s =
      outcome (e.compile (compileWithin depth) >>= fun t =>
        Expr.compileAll (compileWithin depth) (cs.map (·.expr)) >>= fun ts =>
          pure (Sql.Scalar.rightNested t ts)) ctx s := by
  induction cs generalizing e ctx s with
  | nil =>
      simp only [rightNested, List.map_nil, Expr.compileAll, pure_bind, Sql.Scalar.rightNested,
        bind_pure]
  | cons c cs ih =>
      obtain ⟨hc, hcs⟩ := List.forall_mem_cons.1 h
      rw [rightNested, Expr.outcome_binary hc.unregistered]
      refine outcome_bind_congr_right fun t ctx' s' hok => ?_
      rw [outcome_bind_congr (ih fun c' hc' => (hcs c' hc').compile hok)]
      simp only [List.map_cons, Expr.compileAll, bind_assoc, pure_bind, Sql.Scalar.rightNested]

end Conjunct

end

/-! ## A supply in another order -/

/-- The next identities can be handed out in another order, and then those behind them. -/
theorem Supply.exists_rearranged {known ids : List NodeId} {s : Supply} {k : Nat}
    (h : FreshIds known s.upcoming) (hids : ids.Perm (s.next k)) :
    ∃ s' : Supply, FreshIds known s'.upcoming ∧ s'.next k = ids ∧
      (s'.skip k).upcoming = (s.skip k).upcoming := by
  have hlength : ids.length = k := by rw [hids.length_eq, Supply.length_next]
  have hnodup : ids.Nodup := hids.nodup_iff.2 (List.nodup_range.map h.injective)
  have hturn : ∀ n (hn : n < ids.length), ∃ m < k, s.upcoming m = ids[n] := by
    intro n hn
    obtain ⟨m, hm, hmn⟩ := List.mem_map.1 (hids.mem_iff.1 (List.getElem_mem hn))
    exact ⟨m, List.mem_range.1 hm, hmn⟩
  let turn : Nat → NodeId := fun n => if hn : n < ids.length then ids[n] else s.upcoming n
  have hbefore : ∀ n (hn : n < ids.length), turn n = ids[n] := fun n hn => dif_pos hn
  have hbehind : ∀ n, ¬ n < ids.length → turn n = s.upcoming n := fun n hn => dif_neg hn
  have hupcoming : (⟨turn, 0⟩ : Supply).upcoming = turn := rfl
  refine ⟨⟨turn, 0⟩, ⟨fun m n hmn => ?_, fun n => ?_⟩, ?_, funext fun n => ?_⟩
  · rw [hupcoming] at hmn
    by_cases hm : m < ids.length <;> by_cases hn : n < ids.length
    · rw [hbefore m hm, hbefore n hn] at hmn
      exact hnodup.getElem_inj_iff.1 hmn
    · obtain ⟨j, hj, hjm⟩ := hturn m hm
      rw [hbefore m hm, hbehind n hn, ← hjm] at hmn
      have := h.injective hmn
      omega
    · obtain ⟨j, hj, hjn⟩ := hturn n hn
      rw [hbefore n hn, hbehind m hm, ← hjn] at hmn
      have := h.injective hmn
      omega
    · rw [hbehind m hm, hbehind n hn] at hmn
      exact h.injective hmn
  · rw [hupcoming]
    by_cases hn : n < ids.length
    · obtain ⟨j, -, hj⟩ := hturn n hn
      rw [hbefore n hn, ← hj]
      exact h.new j
    · rw [hbehind n hn]
      exact h.new n
  · refine List.ext_getElem (by simp [hlength]) fun n hn hn' => ?_
    simp only [Supply.next, List.getElem_map, List.getElem_range, hupcoming, hbefore n hn']
  · rw [Supply.upcoming_skip, Supply.upcoming_skip, hupcoming, hbehind _ (by omega)]

end QueryCompiler
