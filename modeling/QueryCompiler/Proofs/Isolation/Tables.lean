import Mathlib.Data.List.Nodup
import QueryCompiler.Proofs.Isolation.Moments

/-! # `QueryCompiler.Proofs.Isolation.Tables` — uses of tables do not touch each other

What is registered has been allocated.  The columns of a table are handed out when it is used, so
they are registered nowhere yet, and registering them changes no earlier entry.  Two uses, of one
table or of two, come one after the other; the second has other columns and another alias.

A target is read under its table's own name.  Nothing keeps that name from being the alias of a
table in a subquery, and this is the one case in which two uses have the same qualifier.

    first          second              same qualifier
    opened         opened later        never
    target `t`     opened later        if and only if `t` is the alias that comes next then
-/

namespace QueryCompiler

open CompileM

/-! ## What a use does -/

/-- The columns of a table take the next identities, in order. -/
theorem Table.columnNodes_ids (table : String) : ∀ (names : List String) (s : Supply),
    (Table.columnNodes table names s).1.map Expr.id =
        (List.range' s.used names.length).map s.ids ∧
      (Table.columnNodes table names s).2 = ⟨s.ids, s.used + names.length⟩
  | [], _ => ⟨rfl, rfl⟩
  | name :: names, s => by
      obtain ⟨hids, hsupply⟩ := columnNodes_ids table names ⟨s.ids, s.used + 1⟩
      constructor
      · exact congrArg (s.ids s.used :: ·) hids
      · refine hsupply.trans ?_
        rw [List.length_cons, Nat.add_right_comm, Nat.add_assoc]

/-- What both kinds of use have in common. -/
structure TableUse.Made (u : TableUse) : Prop where
  columns_eq : u.columns = (u.table.instantiate u.before.session.supply).1
  supply_eq : u.after.session.supply = (u.table.instantiate u.before.session.supply).2
  registers : ∃ ctx : Context, ctx.aliases = u.before.context.aliases ∧
    u.after.context = ctx.registerAll u.qualifier ((u.columns.map Expr.id).zip u.table.columns)

namespace TableUse

variable {u w : TableUse}

theorem Opened.made (h : u.Opened) : u.Made := by
  simp only [Opened, compileTable, takes_bind, takes_pure] at h
  obtain ⟨columns, κ, hcolumns, label, ξ, hlabel, _, ζ, hregister, hresult, rfl⟩ := h
  obtain ⟨hc, hctx, hs⟩ := takes_build.1 hcolumns
  obtain ⟨-, hctx', hs'⟩ := takeAlias_eq_ok.1 hlabel
  obtain ⟨hctx'', hs''⟩ := registerAll_eq_ok.1 hregister
  simp only [Prod.mk.injEq, Sql.Source.table.injEq, Row.table.injEq, true_and] at hresult
  obtain ⟨rfl, rfl⟩ := hresult
  refine ⟨hc.symm, ?_, ξ.context, ?_, hctx''.symm⟩
  · rw [← hs'', ← hs', ← hs]
  · rw [← hctx', hctx]
    rfl

theorem Targeted.made (h : u.Targeted) : u.Made := by
  obtain ⟨hq, h⟩ := h
  simp only [compileTarget, takes_bind, takes_pure] at h
  obtain ⟨columns, κ, hcolumns, _, ζ, hregister, hresult, rfl⟩ := h
  obtain ⟨hc, hctx, hs⟩ := takes_build.1 hcolumns
  obtain ⟨hctx', hs'⟩ := registerAll_eq_ok.1 hregister
  simp only [Row.table.injEq, true_and] at hresult
  subst hresult
  refine ⟨hc.symm, ?_, κ.context, ?_, ?_⟩
  · rw [← hs', ← hs]
  · rw [hctx]
  · rw [hq, hctx']

theorem Opened.qualifier_eq (h : u.Opened) :
    u.qualifier = Context.aliasName u.before.counter ∧ u.before.counter < u.after.counter := by
  obtain ⟨hsource, hcounter⟩ := compileTable_counter h
  exact ⟨(Sql.Source.table.inj hsource).2, hcounter ▸ Nat.lt_succ_self _⟩

namespace Made

theorem ids_eq (h : u.Made) : u.columns.map Expr.id =
    (List.range' u.before.session.supply.used u.table.columns.length).map
      u.before.session.supply.ids := by
  rw [h.columns_eq]
  exact (Table.columnNodes_ids _ _ _).1

theorem length_eq (h : u.Made) : u.columns.length = u.table.columns.length := by
  have hlength := congrArg List.length h.ids_eq
  rwa [List.length_map, List.length_map, List.length_range'] at hlength

/-- A column was not handed out before, and is handed out now. -/
theorem exists_turn (h : u.Made) {c : Expr} (hc : c ∈ u.columns) :
    ∃ n, u.before.session.supply.used ≤ n ∧ n < u.after.session.supply.used ∧
      u.before.session.supply.ids n = c.id := by
  have hmem : c.id ∈ u.columns.map Expr.id := List.mem_map_of_mem hc
  rw [h.ids_eq] at hmem
  obtain ⟨n, hn, hid⟩ := List.mem_map.1 hmem
  obtain ⟨hle, hlt⟩ := List.mem_range'_1.1 hn
  refine ⟨n, hle, ?_, hid⟩
  rw [h.supply_eq, Table.instantiate, (Table.columnNodes_ids _ _ _).2]
  exact hlt

/-- A node that is none of the columns is read as before. -/
theorem referenceOf_eq (h : u.Made) {id : NodeId} (hid : id ∉ u.columns.map Expr.id) :
    u.after.referenceOf id = u.before.referenceOf id := by
  obtain ⟨ctx, haliases, hctx⟩ := h.registers
  rw [Moment.referenceOf, hctx]
  rcases Context.referenceOf_registerAll u.qualifier id
    ((u.columns.map Expr.id).zip u.table.columns) ctx with ⟨f, hf, rfl, -⟩ | ⟨-, hread⟩
  · exact absurd (List.of_mem_zip hf).1 hid
  · rw [hread, Context.referenceOf, haliases]
    rfl

/-- Each column is read under its own name. -/
theorem named (h : u.Made) (hinj : Function.Injective u.before.session.supply.ids)
    {p : Expr × String} (hp : p ∈ u.columns.zip u.table.columns) :
    u.after.referenceOf p.1.id = some ⟨u.qualifier, p.2⟩ := by
  obtain ⟨ctx, -, hctx⟩ := h.registers
  have hfield : (p.1.id, p.2) ∈ (u.columns.map Expr.id).zip u.table.columns := by
    rw [List.zip_map_left]
    exact List.mem_map_of_mem hp
  have hnodup : (((u.columns.map Expr.id).zip u.table.columns).map (·.1)).Nodup := by
    rw [List.map_fst_zip (by rw [List.length_map]; exact Nat.le_of_eq h.length_eq), h.ids_eq]
    exact (List.nodup_range' 1).map hinj
  rw [Moment.referenceOf, hctx]
  rcases Context.referenceOf_registerAll u.qualifier p.1.id
    ((u.columns.map Expr.id).zip u.table.columns) ctx with ⟨f, hf, hid, hread⟩ | ⟨hnot, -⟩
  · -- the entry that is found has the identity of the column, and no other entry has it
    obtain rfl : f = (p.1.id, p.2) := List.inj_on_of_nodup_map hnodup hf hfield hid
    exact hread
  · exact absurd (List.mem_map_of_mem hfield) hnot

end Made

end TableUse

/-! ## Isolation -/

variable {old : NodeId → Prop} {T : Table → Prop} {α : Type} {μ : Moment}

/-- How the uses of tables stand to each other and to all that is registered. -/
structure Script.Isolates {m : CompileM α} (old : NodeId → Prop) (script : Script T m)
    (μ : Moment) : Prop where
  /-- At every moment, what is registered was there before or has been handed out, and will not be
  handed out again. -/
  allocated : ∀ κ ∈ script.moments μ, ∀ id, κ.context.Registered id →
    κ.session.supply.Allocated old id ∧ ∀ n, κ.session.supply.used ≤ n → κ.session.supply.ids n ≠ id
  /-- A use of a table changes no earlier entry. -/
  untouched : ∀ u ∈ script.uses μ, ∀ id, u.before.context.Registered id →
    u.after.referenceOf id = u.before.referenceOf id
  /-- It makes one node for each column, read under the qualifier and the column's own name. -/
  named : ∀ u ∈ script.uses μ, u.columns.length = u.table.columns.length ∧
    ∀ p ∈ u.columns.zip u.table.columns, u.after.referenceOf p.1.id = some ⟨u.qualifier, p.2⟩
  /-- Two uses have no node in common.  The later table is opened, and its alias is the earlier
  qualifier if and only if that is the name of a target, and the alias whose turn it is. -/
  apart : (script.uses μ).Pairwise fun u w =>
    (∀ c ∈ u.columns, ∀ c' ∈ w.columns, c.id ≠ c'.id) ∧ w.Opened ∧
      (u.qualifier = w.qualifier ↔
        u.Targeted ∧ T u.table ∧ u.table.name = Context.aliasName w.before.counter)

/-- An allocated identity is not handed out any more, if the supply hands out none twice and none of
those from before. -/
theorem Supply.Allocated.not_upcoming {s s' : Supply} {id : NodeId} (h : s'.Allocated old id)
    (hs : s.Precedes s') (hinj : Function.Injective s.ids) (hold : s.Avoids old) {n : Nat}
    (hn : s'.used ≤ n) : s'.ids n ≠ id := by
  rintro rfl
  rw [hs.ids_eq] at h
  rcases h with h | ⟨k, hk, heq⟩
  · exact hold n (Nat.le_trans hs.used_le hn) h
  · rw [hs.ids_eq] at heq
    exact absurd (hinj heq) (Nat.ne_of_lt (Nat.lt_of_lt_of_le hk hn))

namespace TableUse

variable {u w : TableUse}

/-- A use that comes later has other columns. -/
theorem Made.disjoint (hu : u.Made) (hw : w.Made) (hbefore : u.before.Precedes u.after)
    (h : u.after.Precedes w.before) (hinj : Function.Injective u.before.session.supply.ids)
    {c c' : Expr} (hc : c ∈ u.columns) (hc' : c' ∈ w.columns) : c.id ≠ c'.id := by
  obtain ⟨n, -, hn, hid⟩ := hu.exists_turn hc
  obtain ⟨n', hn', -, hid'⟩ := hw.exists_turn hc'
  rw [h.supply.ids_eq, hbefore.supply.ids_eq] at hid'
  rw [← hid, ← hid']
  intro heq
  exact absurd (hinj heq) (Nat.ne_of_lt (Nat.lt_of_lt_of_le hn (Nat.le_trans h.supply.used_le hn')))

/-- A table that is opened later has another alias. -/
theorem Opened.qualifier_ne (hu : u.Opened) (hw : w.Opened) (h : u.after.Precedes w.before) :
    u.qualifier ≠ w.qualifier := by
  obtain ⟨hq, hlt⟩ := hu.qualifier_eq
  rw [hq, hw.qualifier_eq.1]
  intro heq
  exact absurd (Context.aliasName_inj.1 heq) (Nat.ne_of_lt (Nat.lt_of_lt_of_le hlt h.counter_le))

/-- A target shares its qualifier with a table that is opened under the target's name. -/
theorem Targeted.qualifier_eq_iff (hu : u.Targeted) (hw : w.Opened) :
    u.qualifier = w.qualifier ↔ u.table.name = Context.aliasName w.before.counter := by
  rw [hu.1, hw.qualifier_eq.1]

end TableUse

namespace Script

variable {m : CompileM α} {script : Script T m} {u w : TableUse}

theorem made_of_mem_uses (h : u ∈ script.uses μ) : u.Made ∧ u.before.Precedes u.after := by
  rcases kind_of_mem_uses h with h | ⟨h, ht⟩
  · exact ⟨h.made, (compileTable.script (T := T) u.table).precedes h⟩
  · exact ⟨h.made, (compileTarget.script u.table ht).precedes h.2⟩

/-- From moments at which all is allocated follows what there is to say about uses of tables. -/
theorem Keeps.isolates {leaves : α → List Expr} (h : script.Keeps old μ leaves)
    (hfirst : script.TargetFirst) (hμ : μ.Allocates old) (hinj : Function.Injective μ.session.supply.ids)
    (hold : μ.session.supply.Avoids old) : script.Isolates old μ where
  allocated κ hκ id hid := by
    have hallocated := (h hμ).1 κ hκ hid
    have hprecedes := (precedes_of_mem_moments hκ).supply
    exact ⟨hallocated, fun n hn => hallocated.not_upcoming hprecedes hinj hold hn⟩
  untouched u hu id hid := by
    have hbefore := before_mem_moments hu
    refine (made_of_mem_uses hu).1.referenceOf_eq fun hmem => ?_
    obtain ⟨c, hc, rfl⟩ := List.mem_map.1 hmem
    -- the column's turn comes only now, and the registered node has had its own
    obtain ⟨n, hn, -, heq⟩ := (made_of_mem_uses hu).1.exists_turn hc
    exact ((h hμ).1 u.before hbefore hid).not_upcoming (precedes_of_mem_moments hbefore).supply hinj
      hold hn heq
  named u hu := by
    have hmade := (made_of_mem_uses hu).1
    have hids := (precedes_of_mem_moments (before_mem_moments hu)).supply.ids_eq
    exact ⟨hmade.length_eq, fun p hp => hmade.named (hids ▸ hinj) hp⟩
  apart := by
    have hordered := (script.pairwise_uses μ).and (hfirst μ)
    refine hordered.imp_of_mem fun {u w} hu hw hlater => ⟨?_, hlater.2, ?_⟩
    · obtain ⟨hmade, hbefore⟩ := made_of_mem_uses hu
      have hids := (precedes_of_mem_moments (before_mem_moments hu)).supply.ids_eq
      exact fun c hc c' hc' =>
        hmade.disjoint (made_of_mem_uses hw).1 hbefore hlater.1 (hids ▸ hinj) hc hc'
    · constructor
      · intro hsame
        -- two tables that are opened have different aliases, so the first is a target
        obtain ⟨htarget, hallowed⟩ := (kind_of_mem_uses hu).resolve_left fun hopened =>
          hopened.qualifier_ne hlater.2 hlater.1 hsame
        exact ⟨htarget, hallowed, (htarget.qualifier_eq_iff hlater.2).1 hsame⟩
      · rintro ⟨htarget, -, hname⟩
        exact (htarget.qualifier_eq_iff hlater.2).2 hname

end Script

/-- Uses of tables are isolated from each other and from all that is registered, in every
compilation, whether it succeeds or not. -/
theorem compile_isolates (d : Dialect) (scope : Scope) (session : Session)
    (hinj : Function.Injective session.supply.ids) (hscope : session.supply.Avoids (· ∈ scope.ids)) :
    (∀ q : Query, (q.textScript scope : Script (fun _ => False) _).Isolates (· ∈ scope.ids)
      ⟨.empty d, session⟩) ∧
    (∀ q : ScalarQuery, (q.textScript scope : Script (fun _ => False) _).Isolates (· ∈ scope.ids)
      ⟨.empty d, session⟩) ∧
    ∀ st : Statement, session.supply.Avoids (· ∈ st.ids) →
      (st.textScript scope rfl : Script (· = st.table) _).Isolates
        (fun id => id ∈ scope.ids ∨ id ∈ st.ids) ⟨.empty d, session⟩ := by
  have hempty : ∀ old : NodeId → Prop, (⟨.empty d, session⟩ : Moment).Allocates old :=
    fun _ _ hid => absurd hid List.not_mem_nil
  have hleaves : ∀ old : NodeId → Prop, (∀ id ∈ scope.ids, old id) →
      (⟨.empty d, session⟩ : Moment).session.supply.Holds old (Scope.leaves scope) :=
    fun _ h => Supply.holds_leaves.2 fun id hid => .inl (h id hid)
  have huntargeted : ∀ {α : Type} {m : CompileM α} {script : Script (fun _ => False) m},
      script.TargetFirst :=
    Script.targetFirst_of_opened fun _ _ hu => Script.opened_of_untargeted hu
  refine ⟨fun q => ?_, fun q => ?_, fun st hst => ?_⟩
  · have hkeeps := q.textScript_keeps (T := fun _ => False) (hleaves (· ∈ scope.ids) fun _ => id)
    exact hkeeps.isolates huntargeted (hempty _) hinj hscope
  · have hkeeps := q.textScript_keeps (T := fun _ => False) (hleaves (· ∈ scope.ids) fun _ => id)
    exact hkeeps.isolates huntargeted (hempty _) hinj hscope
  · have hkeeps := st.textScript_keeps (T := (· = st.table))
      (hleaves (fun id => id ∈ scope.ids ∨ id ∈ st.ids) fun _ => .inl) rfl fun _ hid => .inl (.inr hid)
    refine hkeeps.isolates (st.textScript_targetFirst _) (hempty _) hinj ?_
    exact fun n hn hid => hid.elim (hscope n hn) (hst n hn)

private def staff : Table := ⟨"staff", ["Id", "BossId"]⟩

/-- Everyone joined with their superior.  There is no column for wages, so the compilation fails, but
not before both tables are opened. -/
private def wages : Query :=
  .select (.join (.table staff)
    [.mk .inner staff (.named .row "BossId") (.named .row "Id")
      (.tuple [.slot 0 .outer, .slot 0 .inner]) none]) [.exprs [.named .row "Wage"]] none

/-- Those who have someone below them are to go. -/
private def dismissal : Statement :=
  .delete ⟨staff, [.inQuery (.named .row "Id")
    (.select (.table staff) [.exprs [.named .row "BossId"]] none)]⟩

private def start : Moment := ⟨.empty .sqlite, {}⟩

private def TableUse.summary (u : TableUse) : String × String × List NodeId :=
  (u.table.name, u.qualifier, u.columns.map Expr.id)

theorem compile_isolates_staff :
    Function.Injective start.session.supply.ids ∧
    start.session.supply.Avoids (· ∈ Scope.ids []) ∧
    start.session.supply.Avoids (· ∈ dismissal.ids) ∧
    ((wages.textScript [] : Script (fun _ => False) _).Isolates (· ∈ Scope.ids []) start ∧
      (compileQuery .sqlite [] wages {}).1.toOption.isNone ∧
      ((wages.textScript [] : Script (fun _ => False) _).uses start).map TableUse.summary =
        [("staff", "a0", [0, 1]), ("staff", "a1", [2, 3])]) ∧
    (dismissal.textScript [] rfl : Script (· = dismissal.table) _).Isolates
      (fun id => id ∈ Scope.ids [] ∨ id ∈ dismissal.ids) start ∧
    ((dismissal.textScript [] rfl : Script (· = dismissal.table) _).uses start).map
      TableUse.summary = [("staff", "staff", [0, 1]), ("staff", "a0", [3, 4])] := by
  have hinj : Function.Injective start.session.supply.ids := fun n k h => by
    simpa [start, Supply.counting] using h
  have hscope : start.session.supply.Avoids (· ∈ Scope.ids []) := fun _ _ => List.not_mem_nil
  have hgiven : start.session.supply.Avoids (· ∈ dismissal.ids) := fun _ _ => List.not_mem_nil
  obtain ⟨hquery, -, hstatement⟩ := compile_isolates .sqlite [] {} hinj hscope
  refine ⟨hinj, hscope, hgiven, ⟨hquery wages, ?_, ?_⟩, hstatement dismissal hgiven, ?_⟩
  · decide +kernel
  · decide +kernel
  · decide +kernel

/-- A table whose name is the first alias. -/
private def namesake : Table := ⟨"a0", ["Id", "BossId"]⟩

/-- Those who have someone else below them are to go. -/
private def otherDismissal : Statement :=
  .delete ⟨namesake, [.inQuery (.named .row "Id")
    (.select (.filter (.table namesake)
      (.compare .ne (.named .row "Id") (.named (.slot 1 .row) "Id")))
        [.exprs [.named .row "BossId"]] none)]⟩

/-- The target and the table in the subquery are both read as `a0`, and the condition that was to
compare the two compares a column with itself. -/
theorem compile_isolates_namesake_ne :
    ¬ ((otherDismissal.textScript [] rfl : Script (· = otherDismissal.table) _).uses start).Pairwise
      (fun u w => u.qualifier ≠ w.qualifier) ∧
    ((otherDismissal.textScript [] rfl : Script (· = otherDismissal.table) _).uses start).map
      TableUse.summary = [("a0", "a0", [0, 1]), ("a0", "a0", [3, 4])] ∧
    (compileStatement .generic [] otherDismissal {}).1.toOption.map (·.sql) =
      some ("DELETE FROM a0 WHERE a0.Id IN (\n        SELECT\n            a0.BossId AS BossId\n" ++
        "        FROM\n            a0 a0\n        WHERE\n            a0.Id != a0.Id\n    )") := by
  refine ⟨?_, ?_, ?_⟩
  · decide +kernel
  · decide +kernel
  · decide +kernel

end QueryCompiler
