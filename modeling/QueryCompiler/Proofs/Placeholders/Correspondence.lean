import QueryCompiler.Proofs.Placeholders.Compile

/-! # `QueryCompiler.Proofs.Placeholders.Correspondence` — placeholders and bound values

In the text of a compiled query or statement every placeholder is bound, and every value that is
bound has its placeholder in the text, exactly once.  The names of the bound values are `p0`, `p1`
and so on behind the mark of the dialect, in the order of binding.
-/

namespace QueryCompiler

open Sql (MarkFree placeholder placeholdersIn)
open CompileM (Binds)

variable {d : Dialect}

/-! ## Statements that change rows -/

def Sql.Change.Writes (d : Dialect) (is : List Nat) (change : Sql.Change) : Prop :=
  change.Tidy d ∧ change.bounds.Perm is

theorem compileTarget_writes {t : Table} (h : t.Tidy d) :
    Binds d (fun is row => is = [] ∧ row.Tidy d) (compileTarget t) := by
  refine (Binds.build h.instantiate).bind ?_
  rintro _ columns ⟨rfl, hcolumns⟩
  refine (Binds.registerAll h.name (h.zip_ids columns)).bind ?_
  rintro _ _ ⟨rfl, -⟩
  exact .pure ⟨rfl, hcolumns⟩

theorem conjunction_tidy {terms : List ExprTerm} (h : ∀ t ∈ terms, t.Tidy d) :
    ∀ t ∈ conjunction terms, t.Tidy d := by
  cases terms with
  | nil => simp [conjunction]
  | cons first rest =>
      rw [List.forall_mem_cons] at h
      have hfold : ∀ {ts : List ExprTerm} {t : ExprTerm}, t.Tidy d → (∀ t ∈ ts, t.Tidy d) →
          (ts.foldl (.binary .and) t).Tidy d := by
        intro ts
        induction ts with
        | nil => exact fun ht _ => ht
        | cons u ts ih =>
            intro t ht hts
            rw [List.forall_mem_cons] at hts
            exact ih (.binary ht hts.1) hts.2
      intro t ht
      obtain rfl : _ = t := Option.some.inj ht
      exact hfold h.1 h.2

theorem requireColumn_writes {t : Table} (h : t.Tidy d) (column : String) :
    Binds d (fun is _ => is = [] ∧ MarkFree d column) (requireColumn t column) := by
  unfold requireColumn
  split
  · next hmem => exact .pure ⟨rfl, h.columns column (List.contains_iff_mem.1 hmem)⟩
  · exact .throw _

def AssignmentsWrite (d : Dialect) (is : List Nat) (as : List (String × Sql.Scalar)) : Prop :=
  (∀ a ∈ as, Sql.AssignmentTidy d a) ∧ (as.flatMap (·.2.bounds)).Perm is

section

variable {sub : SubqueryCompiler} {scope : Scope}
  (hsub : SubqueryCompiler.Writes d sub) (hs : Scope.Tidy d scope)

include hsub hs

theorem compileAssignments_writes {t : Table} (ht : t.Tidy d) {row : Row} (hr : row.Tidy d) :
    ∀ {as : List (String × Assigned)}, (∀ a ∈ as, a.2.Tidy d) →
      Binds d (AssignmentsWrite d) (compileAssignments sub scope t row as)
  | [], _ => .pure ⟨by simp, .nil⟩
  | (column, value) :: as, h => by
      rw [List.forall_mem_cons] at h
      have hvalue : Build.Returns (Expr.Tidy d) (value.build scope row) := by
        cases h.1 with
        | computed hterm => exact ExprTerm.eval_tidy hterm (hs.clause hr)
        | fixed he => exact .pure he
      refine (requireColumn_writes ht column).bind ?_
      rintro _ _ ⟨rfl, hcolumn⟩
      refine (Binds.build hvalue).bind ?_
      rintro _ e ⟨rfl, he⟩
      refine (Expr.compile_writes hsub he).bind fun is sql hsql => ?_
      refine (compileAssignments_writes ht hr h.2).bind fun js sqls hsqls => .pure ⟨?_, ?_⟩
      · exact List.forall_mem_cons.2 ⟨⟨hcolumn, hsql.1⟩, hsqls.1⟩
      · simpa using hsql.2.append hsqls.2

theorem Delete.compile_writes {s : Delete} (ht : s.table.Tidy d) (hf : ∀ t ∈ s.filters, t.Tidy d) :
    Binds d (Sql.Change.Writes d) (s.compile sub scope) := by
  refine (compileTarget_writes ht).bind ?_
  rintro _ row ⟨rfl, hr⟩
  refine (compileCondition_writes hsub hs (conjunction_tidy hf) hr).bind fun is filter hw => ?_
  refine .pure ⟨.delete ht.name hw.1, ?_⟩
  rw [List.append_nil]
  exact hw.2

theorem Update.compile_writes {s : Update} (ht : s.table.Tidy d)
    (ha : ∀ a ∈ s.assignments, a.2.Tidy d) (hf : ∀ t ∈ s.filters, t.Tidy d) :
    Binds d (Sql.Change.Writes d) (s.compile sub scope) := by
  show Binds d _ (if s.assignments.isEmpty then _ else _)
  split
  · exact .throw _
  · refine (compileTarget_writes ht).bind ?_
    rintro _ row ⟨rfl, hr⟩
    refine (compileAssignments_writes hsub hs ht hr ha).bind fun is assignments has => ?_
    refine (compileCondition_writes hsub hs (conjunction_tidy hf) hr).bind fun js filter hw => ?_
    refine .pure ⟨.update ht.name has.1 hw.1, ?_⟩
    simpa [Sql.Change.bounds] using has.2.append hw.2

theorem Insert.compile_writes {s : Insert} (ht : s.table.Tidy d) (hv : ∀ a ∈ s.values, a.2.Tidy d) :
    Binds d (Sql.Change.Writes d) (s.compile sub scope) := by
  have hvalues : ∀ a ∈ s.values.map (fun v => (v.1, Assigned.fixed v.2)), a.2.Tidy d := by
    intro a ha
    obtain ⟨v, hmem, rfl⟩ := List.mem_map.1 ha
    exact .fixed (hv v hmem)
  have hrow : Row.absent.Tidy d := by simp [Row.Tidy, Row.leaves]
  show Binds d _ (if s.values.isEmpty then _ else _)
  split
  · exact .throw _
  · refine (compileAssignments_writes hsub hs ht hrow hvalues).bind fun is values hw => ?_
    refine .pure ⟨.insert ht.name hw.1, ?_⟩
    rw [List.append_nil]
    exact hw.2

theorem Statement.compile_writes {st : Statement} (h : st.Tidy d) :
    Binds d (Sql.Change.Writes d) (st.compile sub scope) := by
  cases h with
  | delete ht hf => exact Delete.compile_writes hsub hs ht hf
  | update ht ha hf => exact Update.compile_writes hsub hs ht ha hf
  | insert ht hv => exact Insert.compile_writes hsub hs ht hv

end

/-! ## Entry points -/

/-- The bound values are named `p0`, `p1` and so on behind the mark, in order, and the text shows
each of these placeholders exactly once and no other. -/
structure CompiledQuery.Corresponds (d : Dialect) (c : CompiledQuery) : Prop where
  keys_eq : c.params.map (·.1) = (List.range c.params.length).map (placeholder d)
  keys_nodup : (c.params.map (·.1)).Nodup
  shown : (placeholdersIn d c.sql).Perm (c.params.map (·.1))

/-- A text whose placeholders are those of all numbers given out corresponds to the context. -/
theorem Context.Tidy.corresponds {ctx : Context} (h : ctx.Tidy d) {text : String}
    {bounds : List Nat} (htext : placeholdersIn d text = bounds.map (placeholder d))
    (hbounds : bounds.Perm (List.range ctx.params.length)) :
    CompiledQuery.Corresponds d ⟨text, ctx.params⟩ where
  keys_eq := h.keys_eq
  keys_nodup := by
    rw [h.keys_eq]
    exact List.pairwise_map.2 (List.nodup_range.imp fun hne he => hne (Sql.placeholder_inj.1 he))
  shown := by
    rw [htext, h.keys_eq]
    exact hbounds.map _

/-- From the empty context the numbers given out are all that there are. -/
theorem CompileM.Binds.of_empty {α : Type} {A : List Nat → α → Prop} {m : CompileM α}
    (h : Binds d A m) {a : α} {ctx : Context} {s s' : Session}
    (hm : m.outcome (.empty d) s = (.ok (a, ctx), s')) :
    ctx.Tidy d ∧ A (List.range ctx.params.length) a := by
  obtain ⟨hctx, n, hn, ha⟩ := h _ s a ctx s' (.empty d) hm
  refine ⟨hctx, ?_⟩
  rw [hn, List.range_eq_range']
  simpa [Context.empty] using ha

/-- Placeholders and bound values of a tidy query or statement correspond one to one, whatever it
reads from and however deep its subqueries go. -/
theorem compile_corresponds (d : Dialect) (session : Session) {scope : Scope}
    (hs : Scope.Tidy d scope) :
    (∀ q : Query, q.Tidy d → ∀ c, (compileQuery d scope q session).1 = .ok c → c.Corresponds d) ∧
    (∀ st : Statement, st.Tidy d → ∀ c, (compileStatement d scope st session).1 = .ok c →
      c.Corresponds d) := by
  constructor
  · intro q hq c h
    obtain ⟨compiled, ctx, s, s', hok, -, rfl⟩ := compileQuery_eq_ok h
    obtain ⟨hctx, hc⟩ :=
      (Query.compile_writes (compileWithin_writes _) hs hq.obeys.normalize).of_empty hok
    exact hctx.corresponds (Sql.Select.placeholdersIn_render 0 hc.select.1) hc.select.2
  · intro st hst c h
    obtain ⟨change, ctx, s, s', hok, -, rfl⟩ := compileStatement_eq_ok h
    obtain ⟨hctx, hc⟩ := (Statement.compile_writes (compileWithin_writes _) hs hst).of_empty hok
    exact hctx.corresponds (Sql.Change.placeholdersIn_render hc.1) hc.2

/-- Literals in a derived table, in a subquery and in the projection, beside a parameter. -/
private def nestedLiterals : Query :=
  .select
    (.filter
      (.derived (.filter (.table ⟨"Users", ["Id", "Name"]⟩)
        (.compare .eq (.named .row "Name") (.literal (.text "Ann")))))
      (.inQuery (.named .row "Id")
        (.select (.filter (.table ⟨"Bans", ["UserId"]⟩)
          (.compare .lt (.named .row "UserId") (.parameter "limit")))
          [.expr (.binary .add (.named .row "UserId") (.literal (.int 1)))] none)))
    [.exprs [.named .row "Id", .literal (.bool true)]] none

/-- The literal of the projection is bound last and written first. -/
theorem compile_corresponds_nestedLiterals :
    nestedLiterals.Tidy .sqlite ∧ ∃ c, (compileQuery .sqlite [] nestedLiterals {}).1 = .ok c ∧
      placeholdersIn .sqlite c.sql = [":p2", ":p0", ":p1"] ∧ c.Corresponds .sqlite := by
  have htidy : nestedLiterals.Tidy .sqlite := by
    refine .select (.filter (.derived (.filter (.table ⟨by decide, by decide⟩)
      (.compare (.named .slot) .literal))) (.inQuery (.named .slot) ?_)) ?_ (by simp)
    · refine .select (.filter (.table ⟨by decide, by decide⟩)
        (.compare (.named .slot) (.parameter (by decide)))) ?_ (by simp)
      exact List.forall_mem_singleton.2 (.expr (.binary (.named .slot) .literal))
    · refine List.forall_mem_singleton.2 (.tuple ?_)
      refine List.forall_mem_cons.2 ⟨.expr (.named .slot), ?_⟩
      exact List.forall_mem_singleton.2 (.expr .literal)
  have hrun : (compileQuery .sqlite [] nestedLiterals {}).1.toOption.map
      (fun c => placeholdersIn .sqlite c.sql) = some [":p2", ":p0", ":p1"] := by decide +kernel
  obtain ⟨c, hc, hshown⟩ := Option.map_eq_some_iff.1 hrun
  have hok := Except.eq_ok_of_toOption hc
  have hscope : Scope.Tidy .sqlite [] := by simp [Scope.Tidy, Scope.leaves]
  exact ⟨htidy, c, hok, hshown, (compile_corresponds .sqlite {} hscope).1 _ htidy c hok⟩

end QueryCompiler
