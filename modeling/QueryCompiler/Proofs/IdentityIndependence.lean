import QueryCompiler.Proofs.DialectIndependence

/-! # `QueryCompiler.Proofs.IdentityIndependence` — no identity of a node has a say in the output

Every node of an expression has an identity, by which the table of aliases and the outputs of a
derived table know it.  Identities come from one counter, which other users may advance in between,
so two compilations of one query hardly ever build nodes with the same identities.

What they write is the same all the same.  All that matters is which of the nodes at hand are one
node, and this does not depend on the supply, as long as it hands out nothing twice and nothing that
the scope, or the statement, holds already.  Only an error names an identity.
-/

namespace QueryCompiler

/-- One result of both compilations, or a refusal of both for the same reason. -/
inductive SameUpToIdentities :
    Except CompileError CompiledQuery → Except CompileError CompiledQuery → Prop
  | compiled {c} : SameUpToIdentities (.ok c) (.ok c)
  | refused {e e'} : e.SameReason e' → SameUpToIdentities (.error e) (.error e')

theorem SameUpToIdentities.of_alike {known : List NodeId} {ids ids' : Nat → NodeId}
    {h : FreshIds known ids} {h' : FreshIds known ids'} {d : Dialect} {τ : Type}
    {render : Dialect → τ → String} {r r' : Except CompileError CompiledQuery}
    (hr : ResultAlike (.ofFresh h h') (CompiledQuery.Alike (.ofFresh h h') d d render) r r') :
    SameUpToIdentities r r' := by
  cases hr with
  | ok hc =>
      obtain rfl := hc.eq fun hv => hv
      exact .compiled
  | error he => exact .refused he.sameReason

section

variable {scope : Scope} {session session' : Session}

theorem Query.compileText_sameUpToIdentities (h : FreshIds scope.ids session.supply.upcoming)
    (h' : FreshIds scope.ids session'.supply.upcoming) (d : Dialect) (q : Query) :
    SameUpToIdentities (compileQuery d scope q session).1 (compileQuery d scope q session').1 := by
  have hs : scope.Alike (.ofFresh h h') scope := .refl_ofFresh fun _ hi => hi
  have hq : q.Alike Eq q := .refl (fun _ => rfl) q
  exact .of_alike ((Query.Alike.compileText hs hq).start (.ofFresh h h'))

theorem ScalarQuery.compileText_sameUpToIdentities (h : FreshIds scope.ids session.supply.upcoming)
    (h' : FreshIds scope.ids session'.supply.upcoming) (d : Dialect) (q : ScalarQuery) :
    SameUpToIdentities (compileScalar d scope q session).1
      (compileScalar d scope q session').1 := by
  have hs : scope.Alike (.ofFresh h h') scope := .refl_ofFresh fun _ hi => hi
  have hq : q.toQuery.Alike Eq q.toQuery := .refl (fun _ => rfl) _
  exact .of_alike (ScalarQuery.compileScalar_alike hs hq (.ofFresh h h'))

theorem Statement.compileText_sameUpToIdentities {st : Statement}
    (h : FreshIds (scope.ids ++ st.ids) session.supply.upcoming)
    (h' : FreshIds (scope.ids ++ st.ids) session'.supply.upcoming) (d : Dialect) :
    SameUpToIdentities (compileStatement d scope st session).1
      (compileStatement d scope st session').1 := by
  have hs : scope.Alike (.ofFresh h h') scope :=
    .refl_ofFresh fun _ hi => List.mem_append_left _ hi
  have hst : st.Alike (.ofFresh h h') st :=
    .refl (fun _ => rfl) st fun i hi => .inl ⟨rfl, List.mem_append_right _ hi⟩
  exact .of_alike ((hst.compileText hs).start (.ofFresh h h'))

end

theorem FreshIds.append {known known' : List NodeId} {ids : Nat → NodeId}
    (h : FreshIds known ids) (h' : ∀ n, ids n ∉ known') : FreshIds (known ++ known') ids where
  injective := h.injective
  new n hn := (List.mem_append.1 hn).elim (h.new n) (h' n)

/-- The output does not depend on identities: from any two sessions, at whatever point of their
supplies, every query, every aggregate of a query and every statement is compiled to the same text
with the same placeholders and values, or refused for the same reason.  Neither supply hands out an
identity twice, or one that the scope or the statement holds. -/
theorem compile_sameUpToIdentities (d : Dialect) (scope : Scope) (session session' : Session)
    (h : FreshIds scope.ids session.supply.upcoming)
    (h' : FreshIds scope.ids session'.supply.upcoming) :
    (∀ q : Query,
      SameUpToIdentities (compileQuery d scope q session).1 (compileQuery d scope q session').1) ∧
    (∀ q : ScalarQuery,
      SameUpToIdentities (compileScalar d scope q session).1
        (compileScalar d scope q session').1) ∧
    (∀ st : Statement, (∀ n, session.supply.upcoming n ∉ st.ids) →
      (∀ n, session'.supply.upcoming n ∉ st.ids) →
      SameUpToIdentities (compileStatement d scope st session).1
        (compileStatement d scope st session').1) := by
  refine ⟨fun q => q.compileText_sameUpToIdentities h h' d,
    fun q => q.compileText_sameUpToIdentities h h' d, fun st hst hst' => ?_⟩
  exact Statement.compileText_sameUpToIdentities (h.append hst) (h'.append hst') d

private def enclosingCustomer : Scope :=
  [.named "c" (.table ⟨"customers", ["Id"]⟩ [.column 0 "customers" "Id"])]

/-- A counter of which five identities are gone. -/
private def midway : Session := { supply := ⟨fun n => 1 + n, 5⟩ }

/-- A counter that others advance by two between any two turns. -/
private def everyThird : Session := { supply := ⟨fun n => 100 + 3 * n, 0⟩ }

/-- Customers with an order, read from a table kept apart. -/
private def withOrders : Query :=
  .filter (.derived (.select (.table ⟨"customers", ["Id", "Name"]⟩) [.row] none))
    (.inQuery (.named .row "Id")
      (.select (.filter (.table ⟨"orders", ["CustomerId", "Total"]⟩)
        (.compare .gt (.named .row "Total") (.literal (.int 10))))
        [.tuple [.expr (.named .row "CustomerId")]] none))

/-- Orders by a column of a table that is not read from. -/
private def byStrayColumn : Query :=
  .orderBy (.table ⟨"orders", ["CustomerId"]⟩) [⟨.ascending, .named (.table ⟨"other", ["X"]⟩) "X"⟩]

/-- A counter midway and one that is shared: a query that compiles, one that is refused with two
identities of one node, and a change that shares a node with the scope. -/
theorem compile_sameUpToIdentities_withOrders :
    (FreshIds enclosingCustomer.ids midway.supply.upcoming ∧
      FreshIds enclosingCustomer.ids everyThird.supply.upcoming) ∧
    ((compileQuery .sqlite enclosingCustomer withOrders midway).1.map (·.params)).toOption =
      some [(":p0", .int 10)] ∧
    SameUpToIdentities (compileQuery .sqlite enclosingCustomer withOrders midway).1
      (compileQuery .sqlite enclosingCustomer withOrders everyThird).1 ∧
    (compileQuery .sqlite enclosingCustomer byStrayColumn midway).1 =
      .error (.missingAlias "Column" 7) ∧
    (compileQuery .sqlite enclosingCustomer byStrayColumn everyThird).1 =
      .error (.missingAlias "Column" 103) ∧
    SameUpToIdentities (compileQuery .sqlite enclosingCustomer byStrayColumn midway).1
      (compileQuery .sqlite enclosingCustomer byStrayColumn everyThird).1 ∧
    SameUpToIdentities
      (compileStatement .sqlite enclosingCustomer
        (.update ⟨⟨"orders", ["CustomerId"]⟩, [("CustomerId", .fixed (.literal 0 (.int 7)))], []⟩)
        midway).1
      (compileStatement .sqlite enclosingCustomer
        (.update ⟨⟨"orders", ["CustomerId"]⟩, [("CustomerId", .fixed (.literal 0 (.int 7)))], []⟩)
        everyThird).1 := by
  have hmid : FreshIds enclosingCustomer.ids midway.supply.upcoming := by
    refine ⟨fun m n hmn => ?_, fun n hn => ?_⟩
    · simpa [midway, Supply.upcoming] using hmn
    · exact absurd (List.mem_singleton.1 hn) (by simp [midway, Supply.upcoming])
  have hthird : FreshIds enclosingCustomer.ids everyThird.supply.upcoming := by
    refine ⟨fun m n hmn => ?_, fun n hn => ?_⟩
    · have hthree : 3 * m = 3 * n := by simpa [everyThird, Supply.upcoming] using hmn
      omega
    · exact absurd (List.mem_singleton.1 hn) (by simp [everyThird, Supply.upcoming])
  have hall := compile_sameUpToIdentities .sqlite enclosingCustomer midway everyThird hmid hthird
  refine ⟨⟨hmid, hthird⟩, by decide +kernel, hall.1 _, by rfl, by rfl, hall.1 _,
    hall.2.2 _ (fun n hn => hmid.new n hn) (fun n hn => hthird.new n hn)⟩

end QueryCompiler
