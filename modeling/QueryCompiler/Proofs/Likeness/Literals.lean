import QueryCompiler.Proofs.Likeness.Change

/-! # `QueryCompiler.Proofs.Likeness.Literals` — the literals of a query, place by place

The literals of a term, a query or a scope in reading order.  Their places tie the likeness of two
queries to the likeness of two lists: alike queries have equally many literals, and the relation
under which they are alike can be replaced by any other that holds at each place.

    q alike q' under V    ⟹   V holds at each place
    W holds at each place ⟹   q alike q' under W          for alike q and q'
-/

namespace QueryCompiler

mutual

/-- The values of the literals of a term, in reading order. -/
def ExprTerm.literals : ExprTerm → List Value
  | .literal value => [value]
  | .null | .column .. | .parameter _ | .countStar => []
  | .named row _ => row.literals
  | .qualified row _ _ => row.literals
  | .field row _ => row.literals
  | .binary _ left right => left.literals ++ right.literals
  | .unary _ operand => operand.literals
  | .compare _ left right => left.literals ++ right.literals
  | .aggregate _ _ operand => operand.literals
  | .case condition positive negative =>
    condition.literals ++ (positive.literals ++ negative.literals)
  | .like value pattern => value.literals ++ pattern.literals
  | .inList needle values => needle.literals ++ ExprTerm.literalsAll values
  | .inQuery needle query => needle.literals ++ query.literals
  | .over row body => row.literals ++ body.literals

def ExprTerm.literalsAll : List ExprTerm → List Value
  | [] => []
  | term :: terms => term.literals ++ ExprTerm.literalsAll terms

def RowTerm.literals : RowTerm → List Value
  | .slot .. | .absent | .table _ | .get _ => []
  | .tuple rows => RowTerm.literalsAll rows
  | .item row _ => row.literals
  | .key row => row.literals
  | .source row => row.literals
  | .group key source => key.literals ++ source.literals
  | .bind _ value body => value.literals ++ body.literals
  | .expr e => e.literals

def RowTerm.literalsAll : List RowTerm → List Value
  | [] => []
  | term :: terms => term.literals ++ RowTerm.literalsAll terms

def SortTerm.literalsAll : List SortTerm → List Value
  | [] => []
  | .mk _ key :: keys => key.literals ++ SortTerm.literalsAll keys

def JoinTerm.literalsAll : List JoinTerm → List Value
  | [] => []
  | .mk _ _ outerKey innerKey result _ :: joins =>
    outerKey.literals ++ (innerKey.literals ++ (result.literals ++ JoinTerm.literalsAll joins))

def ExprTerm.literalsOption : Option ExprTerm → List Value
  | none => []
  | some term => term.literals

/-- The values of the literals of a query, innermost clause first. -/
def Query.literals : Query → List Value
  | .table _ => []
  | .derived inner => inner.literals
  | .select source stages _ => source.literals ++ RowTerm.literalsAll stages
  | .filter source predicate => source.literals ++ predicate.literals
  | .orderBy source keys => source.literals ++ SortTerm.literalsAll keys
  | .groupBy source keys condition =>
    source.literals ++ (ExprTerm.literalsAll keys ++ ExprTerm.literalsOption condition)
  | .having source predicate => source.literals ++ predicate.literals
  | .join source joins => source.literals ++ JoinTerm.literalsAll joins

end

mutual

/-- The values of the literals of an expression, in reading order. -/
def Expr.literals : Expr → List Value
  | .literal _ value => [value]
  | .null _ | .column .. | .parameter .. | .countStar _ | .unknown .. => []
  | .binary _ _ left right => left.literals ++ right.literals
  | .unary _ _ operand => operand.literals
  | .compare _ _ left right => left.literals ++ right.literals
  | .aggregate _ _ _ operand => operand.literals
  | .case _ condition positive negative =>
    condition.literals ++ (positive.literals ++ negative.literals)
  | .like _ value pattern => value.literals ++ pattern.literals
  | .inList _ needle values => needle.literals ++ Expr.literalsAll values
  | .inQuery _ needle query scope =>
    needle.literals ++ (query.literals ++ Entry.literalsAll scope)

def Expr.literalsAll : List Expr → List Value
  | [] => []
  | e :: es => e.literals ++ Expr.literalsAll es

def Row.literals : Row → List Value
  | .expr e => e.literals
  | .tuple rows => Row.literalsAll rows
  | .table _ columns => Expr.literalsAll columns
  | .group key source => key.literals ++ source.literals
  | .absent => []

def Row.literalsAll : List Row → List Value
  | [] => []
  | row :: rows => row.literals ++ Row.literalsAll rows

def Entry.literals : Entry → List Value
  | .named _ row => row.literals
  | .clause row => row.literals
  | .joined outer inner => outer.literals ++ inner.literals

def Entry.literalsAll : List Entry → List Value
  | [] => []
  | entry :: entries => entry.literals ++ Entry.literalsAll entries

end

def Scope.literals (scope : Scope) : List Value := Entry.literalsAll scope

def Assigned.literals : Assigned → List Value
  | .computed term => term.literals
  | .fixed value => value.literals

def Statement.literals : Statement → List Value
  | .delete s => ExprTerm.literalsAll s.filters
  | .update s => s.assignments.flatMap (·.2.literals) ++ ExprTerm.literalsAll s.filters
  | .insert s => s.values.flatMap (·.2.literals)

variable {V W : Value → Value → Prop} {M N : Matching}

/-! ## Alike terms have alike literals -/

mutual

theorem ExprTerm.Alike.literals : ∀ {t t' : ExprTerm}, t.Alike V t' →
    List.Forall₂ V t.literals t'.literals
  | _, _, .literal h => .cons h .nil
  | _, _, .null | _, _, .column | _, _, .parameter | _, _, .countStar => .nil
  | _, _, .named h | _, _, .qualified h | _, _, .field h => h.literals
  | _, _, .unary h | _, _, .aggregate h => h.literals
  | _, _, .binary h₁ h₂ | _, _, .compare h₁ h₂ | _, _, .like h₁ h₂ =>
      List.rel_append h₁.literals h₂.literals
  | _, _, .case h₁ h₂ h₃ =>
      List.rel_append h₁.literals (List.rel_append h₂.literals h₃.literals)
  | _, _, .inList h₁ h₂ => List.rel_append h₁.literals h₂.literals
  | _, _, .inQuery h₁ h₂ => List.rel_append h₁.literals h₂.literals
  | _, _, .over h₁ h₂ => List.rel_append h₁.literals h₂.literals

theorem ExprTerm.AlikeAll.literals : ∀ {ts ts' : List ExprTerm}, ExprTerm.AlikeAll V ts ts' →
    List.Forall₂ V (ExprTerm.literalsAll ts) (ExprTerm.literalsAll ts')
  | _, _, .nil => .nil
  | _, _, .cons h₁ h₂ => List.rel_append h₁.literals h₂.literals

theorem RowTerm.Alike.literals : ∀ {t t' : RowTerm}, t.Alike V t' →
    List.Forall₂ V t.literals t'.literals
  | _, _, .slot | _, _, .absent | _, _, .table | _, _, .get => .nil
  | _, _, .tuple h => h.literals
  | _, _, .item h | _, _, .key h | _, _, .source h => h.literals
  | _, _, .group h₁ h₂ | _, _, .bind h₁ h₂ => List.rel_append h₁.literals h₂.literals
  | _, _, .expr h => h.literals

theorem RowTerm.AlikeAll.literals : ∀ {ts ts' : List RowTerm}, RowTerm.AlikeAll V ts ts' →
    List.Forall₂ V (RowTerm.literalsAll ts) (RowTerm.literalsAll ts')
  | _, _, .nil => .nil
  | _, _, .cons h₁ h₂ => List.rel_append h₁.literals h₂.literals

theorem SortTerm.AlikeAll.literals : ∀ {ts ts' : List SortTerm}, SortTerm.AlikeAll V ts ts' →
    List.Forall₂ V (SortTerm.literalsAll ts) (SortTerm.literalsAll ts')
  | _, _, .nil => .nil
  | _, _, .cons h₁ h₂ => List.rel_append h₁.literals h₂.literals

theorem JoinTerm.AlikeAll.literals : ∀ {ts ts' : List JoinTerm}, JoinTerm.AlikeAll V ts ts' →
    List.Forall₂ V (JoinTerm.literalsAll ts) (JoinTerm.literalsAll ts')
  | _, _, .nil => .nil
  | _, _, .cons h₁ h₂ h₃ h₄ => List.rel_append h₁.literals
      (List.rel_append h₂.literals (List.rel_append h₃.literals h₄.literals))

theorem ExprTerm.AlikeOption.literals : ∀ {t t' : Option ExprTerm}, ExprTerm.AlikeOption V t t' →
    List.Forall₂ V (ExprTerm.literalsOption t) (ExprTerm.literalsOption t')
  | _, _, .none => .nil
  | _, _, .some h => h.literals

theorem Query.Alike.literals : ∀ {q q' : Query}, q.Alike V q' →
    List.Forall₂ V q.literals q'.literals
  | _, _, .table => .nil
  | _, _, .derived h => h.literals
  | _, _, .select h₁ h₂ => List.rel_append h₁.literals h₂.literals
  | _, _, .filter h₁ h₂ | _, _, .having h₁ h₂ => List.rel_append h₁.literals h₂.literals
  | _, _, .orderBy h₁ h₂ => List.rel_append h₁.literals h₂.literals
  | _, _, .groupBy h₁ h₂ h₃ =>
      List.rel_append h₁.literals (List.rel_append h₂.literals h₃.literals)
  | _, _, .join h₁ h₂ => List.rel_append h₁.literals h₂.literals

end

mutual

theorem Expr.Alike.literals : ∀ {e e' : Expr}, e.Alike M e' →
    List.Forall₂ M.values e.literals e'.literals
  | _, _, .literal _ h => .cons h .nil
  | _, _, .null _ | _, _, .column _ | _, _, .parameter _ | _, _, .countStar _ | _, _, .unknown _ =>
      .nil
  | _, _, .unary _ h | _, _, .aggregate _ h => h.literals
  | _, _, .binary _ h₁ h₂ | _, _, .compare _ h₁ h₂ | _, _, .like _ h₁ h₂ =>
      List.rel_append h₁.literals h₂.literals
  | _, _, .case _ h₁ h₂ h₃ =>
      List.rel_append h₁.literals (List.rel_append h₂.literals h₃.literals)
  | _, _, .inList _ h₁ h₂ => List.rel_append h₁.literals h₂.literals
  | _, _, .inQuery _ h₁ h₂ h₃ =>
      List.rel_append h₁.literals (List.rel_append h₂.literals h₃.literals)

theorem Expr.AlikeAll.literals : ∀ {es es' : List Expr}, Expr.AlikeAll M es es' →
    List.Forall₂ M.values (Expr.literalsAll es) (Expr.literalsAll es')
  | _, _, .nil => .nil
  | _, _, .cons h₁ h₂ => List.rel_append h₁.literals h₂.literals

theorem Row.Alike.literals : ∀ {row row' : Row}, row.Alike M row' →
    List.Forall₂ M.values row.literals row'.literals
  | _, _, .expr h => h.literals
  | _, _, .tuple h => h.literals
  | _, _, .table h => h.literals
  | _, _, .group h₁ h₂ => List.rel_append h₁.literals h₂.literals
  | _, _, .absent => .nil

theorem Row.AlikeAll.literals : ∀ {rows rows' : List Row}, Row.AlikeAll M rows rows' →
    List.Forall₂ M.values (Row.literalsAll rows) (Row.literalsAll rows')
  | _, _, .nil => .nil
  | _, _, .cons h₁ h₂ => List.rel_append h₁.literals h₂.literals

theorem Entry.Alike.literals : ∀ {entry entry' : Entry}, entry.Alike M entry' →
    List.Forall₂ M.values entry.literals entry'.literals
  | _, _, .named h | _, _, .clause h => h.literals
  | _, _, .joined h₁ h₂ => List.rel_append h₁.literals h₂.literals

theorem Entry.AlikeAll.literals : ∀ {es es' : List Entry}, Entry.AlikeAll M es es' →
    List.Forall₂ M.values (Entry.literalsAll es) (Entry.literalsAll es')
  | _, _, .nil => .nil
  | _, _, .cons h₁ h₂ => List.rel_append h₁.literals h₂.literals

end

theorem Assigned.Alike.literals {a a' : Assigned} (h : a.Alike M a') :
    List.Forall₂ M.values a.literals a'.literals := by
  cases h with
  | computed h => exact h.literals
  | fixed h => exact h.literals

theorem Statement.Alike.literals {st st' : Statement} (h : st.Alike M st') :
    List.Forall₂ M.values st.literals st'.literals := by
  cases h with
  | delete hf => exact hf.literals
  | update ha hf =>
      exact List.rel_append (List.rel_flatMap ha fun _ _ h => h.2.literals) hf.literals
  | insert hv => exact List.rel_flatMap hv fun _ _ h => h.2.literals

/-! ## The relation on the literals of alike terms can be changed place by place -/

/-- Two lists that are related as a whole are related part by part, if the first parts have equally
many members. -/
theorem forall₂_split : ∀ {as as' bs bs' : List Value}, List.Forall₂ V as as' →
    List.Forall₂ W (as ++ bs) (as' ++ bs') → List.Forall₂ W as as' ∧ List.Forall₂ W bs bs'
  | _, _, _, _, .nil, h => ⟨.nil, h⟩
  | _, _, _, _, .cons _ hv, .cons h hw =>
      have ⟨h₁, h₂⟩ := forall₂_split hv hw
      ⟨.cons h h₁, h₂⟩

mutual

theorem ExprTerm.Alike.relate : ∀ {t t' : ExprTerm}, t.Alike V t' →
    List.Forall₂ W t.literals t'.literals → t.Alike W t'
  | _, _, .literal _, .cons hw _ => .literal hw
  | _, _, .null, _ => .null
  | _, _, .column, _ => .column
  | _, _, .parameter, _ => .parameter
  | _, _, .countStar, _ => .countStar
  | _, _, .named h, hw => .named (h.relate hw)
  | _, _, .qualified h, hw => .qualified (h.relate hw)
  | _, _, .field h, hw => .field (h.relate hw)
  | _, _, .unary h, hw => .unary (h.relate hw)
  | _, _, .aggregate h, hw => .aggregate (h.relate hw)
  | _, _, .binary h₁ h₂, hw =>
      have ⟨hw₁, hw₂⟩ := forall₂_split h₁.literals hw
      .binary (h₁.relate hw₁) (h₂.relate hw₂)
  | _, _, .compare h₁ h₂, hw =>
      have ⟨hw₁, hw₂⟩ := forall₂_split h₁.literals hw
      .compare (h₁.relate hw₁) (h₂.relate hw₂)
  | _, _, .like h₁ h₂, hw =>
      have ⟨hw₁, hw₂⟩ := forall₂_split h₁.literals hw
      .like (h₁.relate hw₁) (h₂.relate hw₂)
  | _, _, .case h₁ h₂ h₃, hw =>
      have ⟨hw₁, hw⟩ := forall₂_split h₁.literals hw
      have ⟨hw₂, hw₃⟩ := forall₂_split h₂.literals hw
      .case (h₁.relate hw₁) (h₂.relate hw₂) (h₃.relate hw₃)
  | _, _, .inList h₁ h₂, hw =>
      have ⟨hw₁, hw₂⟩ := forall₂_split h₁.literals hw
      .inList (h₁.relate hw₁) (h₂.relate hw₂)
  | _, _, .inQuery h₁ h₂, hw =>
      have ⟨hw₁, hw₂⟩ := forall₂_split h₁.literals hw
      .inQuery (h₁.relate hw₁) (h₂.relate hw₂)
  | _, _, .over h₁ h₂, hw =>
      have ⟨hw₁, hw₂⟩ := forall₂_split h₁.literals hw
      .over (h₁.relate hw₁) (h₂.relate hw₂)

theorem ExprTerm.AlikeAll.relate : ∀ {ts ts' : List ExprTerm}, ExprTerm.AlikeAll V ts ts' →
    List.Forall₂ W (ExprTerm.literalsAll ts) (ExprTerm.literalsAll ts') →
      ExprTerm.AlikeAll W ts ts'
  | _, _, .nil, _ => .nil
  | _, _, .cons h₁ h₂, hw =>
      have ⟨hw₁, hw₂⟩ := forall₂_split h₁.literals hw
      .cons (h₁.relate hw₁) (h₂.relate hw₂)

theorem RowTerm.Alike.relate : ∀ {t t' : RowTerm}, t.Alike V t' →
    List.Forall₂ W t.literals t'.literals → t.Alike W t'
  | _, _, .slot, _ => .slot
  | _, _, .absent, _ => .absent
  | _, _, .table, _ => .table
  | _, _, .get, _ => .get
  | _, _, .tuple h, hw => .tuple (h.relate hw)
  | _, _, .item h, hw => .item (h.relate hw)
  | _, _, .key h, hw => .key (h.relate hw)
  | _, _, .source h, hw => .source (h.relate hw)
  | _, _, .group h₁ h₂, hw =>
      have ⟨hw₁, hw₂⟩ := forall₂_split h₁.literals hw
      .group (h₁.relate hw₁) (h₂.relate hw₂)
  | _, _, .bind h₁ h₂, hw =>
      have ⟨hw₁, hw₂⟩ := forall₂_split h₁.literals hw
      .bind (h₁.relate hw₁) (h₂.relate hw₂)
  | _, _, .expr h, hw => .expr (h.relate hw)

theorem RowTerm.AlikeAll.relate : ∀ {ts ts' : List RowTerm}, RowTerm.AlikeAll V ts ts' →
    List.Forall₂ W (RowTerm.literalsAll ts) (RowTerm.literalsAll ts') → RowTerm.AlikeAll W ts ts'
  | _, _, .nil, _ => .nil
  | _, _, .cons h₁ h₂, hw =>
      have ⟨hw₁, hw₂⟩ := forall₂_split h₁.literals hw
      .cons (h₁.relate hw₁) (h₂.relate hw₂)

theorem SortTerm.AlikeAll.relate : ∀ {ts ts' : List SortTerm}, SortTerm.AlikeAll V ts ts' →
    List.Forall₂ W (SortTerm.literalsAll ts) (SortTerm.literalsAll ts') →
      SortTerm.AlikeAll W ts ts'
  | _, _, .nil, _ => .nil
  | _, _, .cons h₁ h₂, hw =>
      have ⟨hw₁, hw₂⟩ := forall₂_split h₁.literals hw
      .cons (h₁.relate hw₁) (h₂.relate hw₂)

theorem JoinTerm.AlikeAll.relate : ∀ {ts ts' : List JoinTerm}, JoinTerm.AlikeAll V ts ts' →
    List.Forall₂ W (JoinTerm.literalsAll ts) (JoinTerm.literalsAll ts') →
      JoinTerm.AlikeAll W ts ts'
  | _, _, .nil, _ => .nil
  | _, _, .cons h₁ h₂ h₃ h₄, hw =>
      have ⟨hw₁, hw⟩ := forall₂_split h₁.literals hw
      have ⟨hw₂, hw⟩ := forall₂_split h₂.literals hw
      have ⟨hw₃, hw₄⟩ := forall₂_split h₃.literals hw
      .cons (h₁.relate hw₁) (h₂.relate hw₂) (h₃.relate hw₃) (h₄.relate hw₄)

theorem ExprTerm.AlikeOption.relate : ∀ {t t' : Option ExprTerm}, ExprTerm.AlikeOption V t t' →
    List.Forall₂ W (ExprTerm.literalsOption t) (ExprTerm.literalsOption t') →
      ExprTerm.AlikeOption W t t'
  | _, _, .none, _ => .none
  | _, _, .some h, hw => .some (h.relate hw)

theorem Query.Alike.relate : ∀ {q q' : Query}, q.Alike V q' →
    List.Forall₂ W q.literals q'.literals → q.Alike W q'
  | _, _, .table, _ => .table
  | _, _, .derived h, hw => .derived (h.relate hw)
  | _, _, .select h₁ h₂, hw =>
      have ⟨hw₁, hw₂⟩ := forall₂_split h₁.literals hw
      .select (h₁.relate hw₁) (h₂.relate hw₂)
  | _, _, .filter h₁ h₂, hw =>
      have ⟨hw₁, hw₂⟩ := forall₂_split h₁.literals hw
      .filter (h₁.relate hw₁) (h₂.relate hw₂)
  | _, _, .orderBy h₁ h₂, hw =>
      have ⟨hw₁, hw₂⟩ := forall₂_split h₁.literals hw
      .orderBy (h₁.relate hw₁) (h₂.relate hw₂)
  | _, _, .groupBy h₁ h₂ h₃, hw =>
      have ⟨hw₁, hw⟩ := forall₂_split h₁.literals hw
      have ⟨hw₂, hw₃⟩ := forall₂_split h₂.literals hw
      .groupBy (h₁.relate hw₁) (h₂.relate hw₂) (h₃.relate hw₃)
  | _, _, .having h₁ h₂, hw =>
      have ⟨hw₁, hw₂⟩ := forall₂_split h₁.literals hw
      .having (h₁.relate hw₁) (h₂.relate hw₂)
  | _, _, .join h₁ h₂, hw =>
      have ⟨hw₁, hw₂⟩ := forall₂_split h₁.literals hw
      .join (h₁.relate hw₁) (h₂.relate hw₂)

end

mutual

theorem Expr.Alike.relate (hids : ∀ {i i'}, M.ids i i' → N.ids i i') : ∀ {e e' : Expr},
    e.Alike M e' → List.Forall₂ N.values e.literals e'.literals → e.Alike N e'
  | _, _, .literal hi _, .cons hw _ => .literal (hids hi) hw
  | _, _, .null hi, _ => .null (hids hi)
  | _, _, .column hi, _ => .column (hids hi)
  | _, _, .parameter hi, _ => .parameter (hids hi)
  | _, _, .countStar hi, _ => .countStar (hids hi)
  | _, _, .unknown hi, _ => .unknown (hids hi)
  | _, _, .unary hi h, hw => .unary (hids hi) (h.relate hids hw)
  | _, _, .aggregate hi h, hw => .aggregate (hids hi) (h.relate hids hw)
  | _, _, .binary hi h₁ h₂, hw =>
      have ⟨hw₁, hw₂⟩ := forall₂_split h₁.literals hw
      .binary (hids hi) (h₁.relate hids hw₁) (h₂.relate hids hw₂)
  | _, _, .compare hi h₁ h₂, hw =>
      have ⟨hw₁, hw₂⟩ := forall₂_split h₁.literals hw
      .compare (hids hi) (h₁.relate hids hw₁) (h₂.relate hids hw₂)
  | _, _, .like hi h₁ h₂, hw =>
      have ⟨hw₁, hw₂⟩ := forall₂_split h₁.literals hw
      .like (hids hi) (h₁.relate hids hw₁) (h₂.relate hids hw₂)
  | _, _, .case hi h₁ h₂ h₃, hw =>
      have ⟨hw₁, hw⟩ := forall₂_split h₁.literals hw
      have ⟨hw₂, hw₃⟩ := forall₂_split h₂.literals hw
      .case (hids hi) (h₁.relate hids hw₁) (h₂.relate hids hw₂) (h₃.relate hids hw₃)
  | _, _, .inList hi h₁ h₂, hw =>
      have ⟨hw₁, hw₂⟩ := forall₂_split h₁.literals hw
      .inList (hids hi) (h₁.relate hids hw₁) (h₂.relate hids hw₂)
  | _, _, .inQuery hi h₁ h₂ h₃, hw =>
      have ⟨hw₁, hw⟩ := forall₂_split h₁.literals hw
      have ⟨hw₂, hw₃⟩ := forall₂_split h₂.literals hw
      .inQuery (hids hi) (h₁.relate hids hw₁) (h₂.relate hw₂) (h₃.relate hids hw₃)

theorem Expr.AlikeAll.relate (hids : ∀ {i i'}, M.ids i i' → N.ids i i') : ∀ {es es' : List Expr},
    Expr.AlikeAll M es es' →
    List.Forall₂ N.values (Expr.literalsAll es) (Expr.literalsAll es') → Expr.AlikeAll N es es'
  | _, _, .nil, _ => .nil
  | _, _, .cons h₁ h₂, hw =>
      have ⟨hw₁, hw₂⟩ := forall₂_split h₁.literals hw
      .cons (h₁.relate hids hw₁) (h₂.relate hids hw₂)

theorem Row.Alike.relate (hids : ∀ {i i'}, M.ids i i' → N.ids i i') : ∀ {row row' : Row},
    row.Alike M row' → List.Forall₂ N.values row.literals row'.literals → row.Alike N row'
  | _, _, .expr h, hw => .expr (h.relate hids hw)
  | _, _, .tuple h, hw => .tuple (h.relate hids hw)
  | _, _, .table h, hw => .table (h.relate hids hw)
  | _, _, .group h₁ h₂, hw =>
      have ⟨hw₁, hw₂⟩ := forall₂_split h₁.literals hw
      .group (h₁.relate hids hw₁) (h₂.relate hids hw₂)
  | _, _, .absent, _ => .absent

theorem Row.AlikeAll.relate (hids : ∀ {i i'}, M.ids i i' → N.ids i i') : ∀ {rows rows' : List Row},
    Row.AlikeAll M rows rows' →
    List.Forall₂ N.values (Row.literalsAll rows) (Row.literalsAll rows') →
      Row.AlikeAll N rows rows'
  | _, _, .nil, _ => .nil
  | _, _, .cons h₁ h₂, hw =>
      have ⟨hw₁, hw₂⟩ := forall₂_split h₁.literals hw
      .cons (h₁.relate hids hw₁) (h₂.relate hids hw₂)

theorem Entry.Alike.relate (hids : ∀ {i i'}, M.ids i i' → N.ids i i') : ∀ {entry entry' : Entry},
    entry.Alike M entry' → List.Forall₂ N.values entry.literals entry'.literals →
      entry.Alike N entry'
  | _, _, .named h, hw => .named (h.relate hids hw)
  | _, _, .clause h, hw => .clause (h.relate hids hw)
  | _, _, .joined h₁ h₂, hw =>
      have ⟨hw₁, hw₂⟩ := forall₂_split h₁.literals hw
      .joined (h₁.relate hids hw₁) (h₂.relate hids hw₂)

theorem Entry.AlikeAll.relate (hids : ∀ {i i'}, M.ids i i' → N.ids i i') :
    ∀ {es es' : List Entry}, Entry.AlikeAll M es es' →
      List.Forall₂ N.values (Entry.literalsAll es) (Entry.literalsAll es') →
      Entry.AlikeAll N es es'
  | _, _, .nil, _ => .nil
  | _, _, .cons h₁ h₂, hw =>
      have ⟨hw₁, hw₂⟩ := forall₂_split h₁.literals hw
      .cons (h₁.relate hids hw₁) (h₂.relate hids hw₂)

end

section

variable (hids : ∀ {i i'}, M.ids i i' → N.ids i i')

include hids

theorem Assigned.Alike.relate {a a' : Assigned} (h : a.Alike M a')
    (hw : List.Forall₂ N.values a.literals a'.literals) : a.Alike N a' := by
  cases h with
  | computed h => exact .computed (h.relate hw)
  | fixed h => exact .fixed (h.relate hids hw)

theorem Statement.Alike.relate {st st' : Statement} (h : st.Alike M st')
    (hw : List.Forall₂ N.values st.literals st'.literals) : st.Alike N st' := by
  cases h with
  | delete hf => exact .delete (hf.relate hw)
  | update ha hf =>
      have hla := List.rel_flatMap ha fun _ _ h => h.2.literals
      obtain ⟨hwa, hwf⟩ := forall₂_split hla hw
      refine .update ?_ (hf.relate hwf)
      clear hla hw hwf hf
      induction ha with
      | nil => exact .nil
      | cons h _ ih =>
          obtain ⟨hw₁, hw₂⟩ := forall₂_split h.2.literals hwa
          exact .cons ⟨h.1, h.2.relate hids hw₁⟩ (ih hw₂)
  | insert hv =>
      refine .insert ?_
      dsimp only [Statement.literals] at hw
      induction hv with
      | nil => exact .nil
      | cons h _ ih =>
          obtain ⟨hw₁, hw₂⟩ := forall₂_split h.2.literals hw
          exact .cons ⟨h.1, h.2.relate hids hw₁⟩ (ih hw₂)

end

end QueryCompiler
