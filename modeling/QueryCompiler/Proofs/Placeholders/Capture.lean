import QueryCompiler.Proofs.Growth
import QueryCompiler.Proofs.Likeness.Identities
import QueryCompiler.Proofs.LiteralIndependence

/-! # `QueryCompiler.Proofs.Placeholders.Capture` — parameters of the caller that are bound already

A parameter is written as its name behind the mark of the dialect, for the caller to bind.  The
values of literals are bound to names behind the same mark, and nothing keeps the two apart: a
parameter that is called `p0` is taken for the first literal of the whole compilation, wherever in
the query the two stand.

So a parameter is safe or not depending on how many values are bound before the compilation ends,
and this is all that it depends on: the names `p0`, `p1` and so on, one for each bound value, are
captured, and no other is.
-/

namespace QueryCompiler

open Sql (placeholder)

/-! ## The parameters of a statement -/

namespace Sql

mutual

/-- The names of the caller's parameters in an expression. -/
def Scalar.parameters : Scalar → List String
  | .named name => [name]
  | .reference .. | .bound _ | .null | .countStar => []
  | .binary _ left right | .compare _ left right | .like left right =>
    left.parameters ++ right.parameters
  | .unary _ operand | .nullTest _ operand | .aggregate _ _ operand => operand.parameters
  | .case condition positive negative =>
    condition.parameters ++ (positive.parameters ++ negative.parameters)
  | .inList needle values => needle.parameters ++ Scalar.parametersAll values
  | .inSelect needle select => needle.parameters ++ select.parameters

def Scalar.parametersAll : List Scalar → List String
  | [] => []
  | e :: es => e.parameters ++ Scalar.parametersAll es

def Scalar.parametersOption : Option Scalar → List String
  | none => []
  | some e => e.parameters

def Output.parametersAll : List Output → List String
  | [] => []
  | .mk value _ :: outputs => value.parameters ++ Output.parametersAll outputs

def Source.parameters : Source → List String
  | .table .. => []
  | .derived select _ => select.parameters

def Join.parametersAll : List Join → List String
  | [] => []
  | .mk _ _ _ outer inner :: joins =>
    outer.parameters ++ (inner.parameters ++ Join.parametersAll joins)

def OrderItem.parametersAll : List OrderItem → List String
  | [] => []
  | .mk key _ :: items => key.parameters ++ OrderItem.parametersAll items

def Select.parameters : Select → List String
  | .mk outputs source joins filter keys having order =>
    Output.parametersAll outputs ++ (source.parameters ++ (Join.parametersAll joins ++
      (Scalar.parametersOption filter ++ (Scalar.parametersAll keys ++
        (Scalar.parametersOption having ++ OrderItem.parametersAll order)))))

end

/-- The names of the caller's parameters in a statement that changes rows. -/
def Change.parameters : Change → List String
  | .delete _ filter => Scalar.parametersOption filter
  | .update _ assignments filter =>
    assignments.flatMap (·.2.parameters) ++ Scalar.parametersOption filter
  | .insert _ values => values.flatMap (·.2.parameters)

end Sql

/-! ## The statement of a compilation -/

def Query.statement (d : Dialect) (scope : Scope) (q : Query) (session : Session) :
    Except CompileError Sql.Select :=
  ((q.normalize.compileIn scope).start d session).1.map (·.select)

def Statement.change (d : Dialect) (scope : Scope) (st : Statement) (session : Session) :
    Except CompileError Sql.Change :=
  ((st.compileIn scope).start d session).1

section

variable {d : Dialect} {scope : Scope}

/-- What has been reported before has no say in the statement. -/
theorem Query.statement_congr (q : Query) {s s' : Session} (h : s.supply = s'.supply) :
    q.statement d scope s = q.statement d scope s' := by
  have hscope : scope.Alike (.sharing Eq fun hv => congrArg _ hv) scope :=
    Entry.AlikeAll.refl (fun _ => rfl) scope fun _ _ => rfl
  have hrun : ResultAlike _ (Compiled.Alike _) ((q.normalize.compileIn scope).start d s).1
      ((q.normalize.compileIn scope).start d s').1 :=
    (Query.Alike.compileIn hscope (.refl (fun _ => rfl) q.normalize)).start (h ▸ .refl_sharing _)
  unfold Query.statement
  generalize ((q.normalize.compileIn scope).start d s).1 = r at hrun ⊢
  generalize ((q.normalize.compileIn scope).start d s').1 = r' at hrun ⊢
  cases hrun with
  | ok ha => exact congrArg Except.ok ha.select_eq
  | error he => exact congrArg Except.error he.eq_of_sharing

theorem Statement.change_congr (st : Statement) {s s' : Session} (h : s.supply = s'.supply) :
    st.change d scope s = st.change d scope s' := by
  have hscope : scope.Alike (.sharing Eq fun hv => congrArg _ hv) scope :=
    Entry.AlikeAll.refl (fun _ => rfl) scope fun _ _ => rfl
  have hrun : ResultAlike _ Eq ((st.compileIn scope).start d s).1
      ((st.compileIn scope).start d s').1 :=
    (Statement.Alike.compileIn hscope (.refl (fun _ => rfl) st fun _ _ => rfl)).start
      (h ▸ .refl_sharing _)
  unfold Statement.change
  generalize ((st.compileIn scope).start d s).1 = r at hrun ⊢
  generalize ((st.compileIn scope).start d s').1 = r' at hrun ⊢
  cases hrun with
  | ok ha => exact congrArg Except.ok ha
  | error he => exact congrArg Except.error he.eq_of_sharing

end

/-! ## Bound names -/

/-- In an ordered context a placeholder has the value at its number, and no other name has one. -/
theorem Context.Ordered.lookup_eq_some {d : Dialect} {ctx : Context} (h : ctx.Ordered d)
    {name : String} {value : Value} :
    ctx.params.lookup name = some value ↔
      ∃ i : Nat, name = placeholder d i ∧ ctx.params[i]?.map Prod.snd = some value := by
  have hkey : ∀ (i : Nat) (p : String × Value), ctx.params[i]? = some p → p.1 = placeholder d i := by
    intro i p hp
    have hi : i < ctx.params.length := (List.getElem?_eq_some_iff.1 hp).1
    have hmap := congrArg (·[i]?) h.keys_eq
    simp only [List.getElem?_map, hp, Option.map_some, List.getElem?_range hi] at hmap
    exact Option.some.inj hmap
  rw [List.lookup_eq_some_iff]
  constructor
  · rintro ⟨before, after, hparams, -⟩
    have hp : ctx.params[before.length]? = some (name, value) := by simp [hparams]
    exact ⟨before.length, hkey _ _ hp, by rw [hp]; rfl⟩
  · rintro ⟨i, rfl, hvalue⟩
    obtain ⟨⟨key, v⟩, hp, rfl⟩ := Option.map_eq_some_iff.1 hvalue
    obtain rfl : key = placeholder d i := hkey i _ hp
    obtain ⟨hi, hget⟩ := List.getElem?_eq_some_iff.1 hp
    refine ⟨ctx.params.take i, ctx.params.drop (i + 1), ?_, ?_⟩
    · rw [← hget, List.getElem_cons_drop, List.take_append_drop]
    · intro p hmem
      obtain ⟨j, hj, rfl⟩ := List.mem_take_iff_getElem.1 hmem
      have hne : placeholder d i ≠ placeholder d j := fun he => by
        have := Sql.placeholder_inj.1 he
        omega
      rw [hkey j _ (List.getElem?_eq_getElem (by omega))]
      simpa using hne

/-- The bound values are named `p0`, `p1` and so on behind the mark, and a parameter is bound to a
value exactly if it has the name of that value. -/
structure CompiledQuery.Captures (d : Dialect) (parameters : List String) (c : CompiledQuery) :
    Prop where
  keys_eq : c.params.map (·.1) = (List.range c.params.length).map (placeholder d)
  bound_iff : ∀ name ∈ parameters, ∀ value,
    c.params.lookup (d.parameterMark ++ name) = some value ↔
      ∃ i : Nat, name = "p" ++ toString i ∧ c.params[i]?.map Prod.snd = some value

theorem Context.Ordered.captures {d : Dialect} {ctx : Context} (h : ctx.Ordered d) (text : String)
    (parameters : List String) : CompiledQuery.Captures d parameters ⟨text, ctx.params⟩ where
  keys_eq := h.keys_eq
  bound_iff name _ value := by
    have hname : ∀ i, d.parameterMark ++ name = placeholder d i ↔ name = "p" ++ toString i := by
      intro i
      rw [placeholder, String.append_assoc, String.append_right_inj]
    simp only [h.lookup_eq_some, hname]

section

variable {d : Dialect} {scope : Scope} {session : Session} {c : CompiledQuery}

theorem Query.captures {q : Query} (h : (compileQuery d scope q session).1 = .ok c) :
    ∃ select, q.statement d scope session = .ok select ∧ c.sql = select.render d 0 ∧
      c.Captures d select.parameters := by
  obtain ⟨compiled, ctx, s, s', hok, hs, rfl⟩ := compileQuery_eq_ok h
  have hctx := ((Context.Ordered.empty d).evolves (q.normalize.compileIn_evolves scope hok)).1
  refine ⟨compiled.select, ?_, rfl, hctx.captures _ _⟩
  rw [← q.statement_congr hs, Query.statement, CompileM.start_fst, hok]
  rfl

theorem ScalarQuery.captures {q : ScalarQuery} (h : (compileScalar d scope q session).1 = .ok c) :
    ∃ select, q.toQuery.statement d scope session = .ok select ∧ c.sql = select.render d 0 ∧
      c.Captures d select.parameters := by
  obtain ⟨s, hs, hq⟩ := compileScalar_eq_ok h
  rw [← q.toQuery.statement_congr hs]
  exact Query.captures hq

theorem Statement.captures {st : Statement}
    (h : (compileStatement d scope st session).1 = .ok c) :
    ∃ change, st.change d scope session = .ok change ∧ c.sql = change.render d ∧
      c.Captures d change.parameters := by
  obtain ⟨change, ctx, s, s', hok, hs, rfl⟩ := compileStatement_eq_ok h
  have hctx := ((Context.Ordered.empty d).evolves (st.compileIn_evolves scope hok)).1
  refine ⟨change, ?_, rfl, hctx.captures _ _⟩
  rw [← st.change_congr hs, Statement.change, CompileM.start_fst, hok]
  rfl

end

/-- A parameter is captured exactly if it has the name of a bound value.  Every query, every aggregate
of a query and every statement that compiles binds its values to `p0`, `p1` and so on, in order, and
each parameter in the statement that it compiles to has the value with its name, if there are that
many, and none otherwise. -/
theorem compile_captures (d : Dialect) (scope : Scope) (session : Session) :
    (∀ (q : Query) (c : CompiledQuery), (compileQuery d scope q session).1 = .ok c →
      ∃ select, q.statement d scope session = .ok select ∧ c.sql = select.render d 0 ∧
        c.Captures d select.parameters) ∧
    (∀ (q : ScalarQuery) (c : CompiledQuery), (compileScalar d scope q session).1 = .ok c →
      ∃ select, q.toQuery.statement d scope session = .ok select ∧ c.sql = select.render d 0 ∧
        c.Captures d select.parameters) ∧
    (∀ (st : Statement) (c : CompiledQuery), (compileStatement d scope st session).1 = .ok c →
      ∃ change, st.change d scope session = .ok change ∧ c.sql = change.render d ∧
        c.Captures d change.parameters) :=
  ⟨fun _ _ => Query.captures, fun _ _ => ScalarQuery.captures, fun _ _ => Statement.captures⟩

/-- The adult customer whose key the caller gives, under the name of the first literal. -/
private def adultWithKey : Query :=
  .filter (.table ⟨"customers", ["Id", "Age"]⟩)
    (.binary .and (.compare .eq (.named .row "Id") (.parameter "p0"))
      (.compare .eq (.named .row "Age") (.literal (.int 18))))

/-- The key that the caller should give is taken for the age. -/
theorem compile_captures_adultWithKey_ne :
    ((adultWithKey.statement .generic [] {}).map Sql.Select.parameters).toOption = some ["p0"] ∧
    ((compileQuery .generic [] adultWithKey {}).1.map (·.params.lookup "@p0")).toOption =
      some (some (.int 18)) := by
  constructor <;> decide +kernel

/-- The same in a derived table, beside a parameter whose number no value has. -/
private def adultsBelow : Query :=
  .filter (.derived (.select adultWithKey [.row] none))
    (.compare .lt (.named .row "Id") (.parameter "p1"))

/-- One value is bound: `p0` is captured, and `p1` is not. -/
theorem compile_captures_adultsBelow :
    ∃ c, (compileQuery .sqlite [] adultsBelow {}).1 = .ok c ∧
      c.params.lookup ":p0" = some (.int 18) ∧ c.params.lookup ":p1" = none ∧
      ∃ select, adultsBelow.statement .sqlite [] {} = .ok select ∧ c.sql = select.render .sqlite 0 ∧
        c.Captures .sqlite select.parameters := by
  have hrun : (compileQuery .sqlite [] adultsBelow {}).1.toOption.map
      (fun c => (c.params.lookup ":p0", c.params.lookup ":p1")) = some (some (.int 18), none) := by
    decide +kernel
  obtain ⟨c, hc, hlookup⟩ := Option.map_eq_some_iff.1 hrun
  have hok := Except.eq_ok_of_toOption hc
  exact ⟨c, hok, congrArg Prod.fst hlookup, congrArg Prod.snd hlookup,
    (compile_captures .sqlite [] {}).1 adultsBelow c hok⟩

end QueryCompiler
