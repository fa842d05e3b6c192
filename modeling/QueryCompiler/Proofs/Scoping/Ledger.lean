import QueryCompiler.Proofs.Steps

/-! # `QueryCompiler.Proofs.Scoping.Ledger` — where nodes are read from, step by step

A ledger is what the rules for reading nodes depend on: where each node is read from, and which
identities have been given out.  Only nodes that have been built are registered, so a node that is
built later is a stranger to the ledger.  A ledger *grows* as long as no node given out before is
registered anew; what has been found out about such nodes then stays true.

    m grows from l to l', returning a with Q    f a grows from l' to l'', returning b with R
    ----------------------------------------------------------------------------------------
    m >>= f   grows from l to l'', returning b with R
-/

namespace QueryCompiler

def Supply.Given (s : Supply) (id : NodeId) : Prop := ∃ n < s.used, s.ids n = id

/-- Where nodes are read from and which identities have been handed out.  No identity is handed out
twice, and none is registered before it is handed out. -/
structure Ledger where
  read : NodeId → Option Reference
  supply : Supply
  injective : Function.Injective supply.ids
  given_of_read : ∀ {id r}, read id = some r → supply.Given id

namespace Ledger

def Given (l : Ledger) (id : NodeId) : Prop := l.supply.Given id

/-- Identities have been handed out since, and those from before are read from where they were. -/
structure Grows (l l' : Ledger) : Prop where
  ids_eq : l'.supply.ids = l.supply.ids
  used_le : l.supply.used ≤ l'.supply.used
  read_eq : ∀ {id}, l.Given id → l'.read id = l.read id

namespace Grows

variable {l l₁ l₂ : Ledger}

theorem refl (l : Ledger) : l.Grows l := ⟨rfl, Nat.le_refl _, fun _ => rfl⟩

theorem given (h : l.Grows l₁) {id : NodeId} : l.Given id → l₁.Given id
  | ⟨n, hn, hid⟩ => ⟨n, Nat.lt_of_lt_of_le hn h.used_le, h.ids_eq ▸ hid⟩

theorem trans (h₁ : l.Grows l₁) (h₂ : l₁.Grows l₂) : l.Grows l₂ where
  ids_eq := h₂.ids_eq.trans h₁.ids_eq
  used_le := Nat.le_trans h₁.used_le h₂.used_le
  read_eq hid := (h₂.read_eq (h₁.given hid)).trans (h₁.read_eq hid)

end Grows

def start (supply : Supply) (h : Function.Injective supply.ids) : Ledger where
  read _ := none
  supply := supply
  injective := h
  given_of_read := nofun

def next (l : Ledger) : Ledger where
  read := l.read
  supply := ⟨l.supply.ids, l.supply.used + 1⟩
  injective := l.injective
  given_of_read h :=
    let ⟨n, hn, hid⟩ := l.given_of_read h
    ⟨n, Nat.lt_succ_of_lt hn, hid⟩

def nextId (l : Ledger) : NodeId := l.supply.ids l.supply.used

theorem grows_next (l : Ledger) : l.Grows l.next := ⟨rfl, Nat.le_succ _, fun _ => rfl⟩

theorem given_nextId (l : Ledger) : l.next.Given l.nextId := ⟨_, Nat.lt_succ_self _, rfl⟩

theorem not_given_nextId (l : Ledger) : ¬ l.Given l.nextId := by
  rintro ⟨n, hn, hid⟩
  have heq := l.injective hid
  omega

theorem read_eq_none (l : Ledger) {id : NodeId} (h : ¬ l.Given id) : l.read id = none := by
  cases hr : l.read id with
  | none => rfl
  | some r => exact absurd (l.given_of_read hr) h

/-- The ledger is that of a context and a session. -/
structure Describes (l : Ledger) (ctx : Context) (s : Session) : Prop where
  read_eq : l.read = ctx.referenceOf
  supply_eq : l.supply = s.supply

end Ledger

variable {α β : Type} {l : Ledger}

/-! ## Building nodes -/

/-- From the ledger `l` on, the computation does nothing but hand out identities, and comes to a
ledger and a result with `Q`. -/
def Build.Grows (l : Ledger) (Q : Ledger → α → Prop) (b : Build α) : Prop :=
  ∃ l' : Ledger, l'.read = l.read ∧ l'.supply = (b l.supply).2 ∧ l.Grows l' ∧ Q l' (b l.supply).1

namespace Build.Grows

variable {Q : Ledger → α → Prop} {R : Ledger → β → Prop}

theorem pure {a : α} (h : Q l a) : Build.Grows l Q (pure a) := ⟨l, rfl, rfl, .refl l, h⟩

theorem bind {b : Build α} {f : α → Build β} (hb : Build.Grows l Q b)
    (hf : ∀ l' a, l.Grows l' → Q l' a → Build.Grows l' R (f a)) : Build.Grows l R (b >>= f) := by
  obtain ⟨l₁, hread₁, hsupply₁, hl₁, hq⟩ := hb
  obtain ⟨l₂, hread₂, hsupply₂, hl₂, hr⟩ := hf l₁ _ hl₁ hq
  rw [hsupply₁] at hsupply₂ hr
  exact ⟨l₂, hread₂.trans hread₁, hsupply₂, hl₁.trans hl₂, hr⟩

theorem node {make : NodeId → α} (h : Q l.next (make l.nextId)) :
    Build.Grows l Q (Build.node make) :=
  ⟨l.next, rfl, rfl, l.grows_next, h⟩

end Build.Grows

/-! ## Steps -/

/-- From the ledger `l` on, the step comes to a ledger and a result with `Q`, if it succeeds. -/
def CompileM.Leads (l : Ledger) (Q : Ledger → α → Prop) (m : CompileM α) : Prop :=
  ∀ ⦃ctx : Context⦄ ⦃s : Session⦄ ⦃a : α⦄ ⦃ctx' : Context⦄ ⦃s' : Session⦄, l.Describes ctx s →
    outcome m ctx s = (.ok (a, ctx'), s') → ∃ l' : Ledger, l'.Describes ctx' s' ∧ Q l' a

/-- The same for a step in which the ledger grows. -/
def CompileM.Grows (l : Ledger) (Q : Ledger → α → Prop) (m : CompileM α) : Prop :=
  CompileM.Leads l (fun l' a => l.Grows l' ∧ Q l' a) m

namespace CompileM

variable {Q : Ledger → α → Prop} {R : Ledger → β → Prop} {m : CompileM α}

namespace Leads

theorem throw (e : CompileError) : Leads l Q (throw e) := fun _ _ _ _ _ _ h =>
  (throw_eq_ok.1 h).elim

theorem mono {Q' : Ledger → α → Prop} (hm : Leads l Q m) (h : ∀ l' a, Q l' a → Q' l' a) :
    Leads l Q' m := by
  intro ctx s a ctx' s' hl hok
  obtain ⟨l', hl', hq⟩ := hm hl hok
  exact ⟨l', hl', h l' a hq⟩

theorem bind {f : α → CompileM β} (hm : Leads l Q m) (hf : ∀ l' a, Q l' a → Leads l' R (f a)) :
    Leads l R (m >>= f) := by
  intro ctx s b ctx' s' hl hok
  obtain ⟨a, ctx₁, s₁, hm₁, hf₁⟩ := bind_eq_ok.1 hok
  obtain ⟨l₁, hl₁, hq⟩ := hm hl hm₁
  exact hf l₁ a hq hl₁ hf₁

/-- A step sees the context that the ledger describes. -/
theorem withContext {f : Context → CompileM α}
    (h : ∀ ctx : Context, l.read = ctx.referenceOf → Leads l Q (f ctx)) :
    Leads l Q (get >>= f) := by
  intro ctx s a ctx' s' hl hok
  obtain ⟨_, _, _, hget, hf⟩ := bind_eq_ok.1 hok
  obtain ⟨rfl, rfl, rfl⟩ := get_eq_ok.1 hget
  exact h _ hl.read_eq hl hf

/-- The level of a statement is no concern of the ledger. -/
theorem indented (hm : Leads l Q m) (levels : Nat) : Leads l Q (indented levels m) := by
  intro ctx s a ctx' s' hl hok
  obtain ⟨ctx₁, hm₁, rfl⟩ := indented_eq_ok.1 hok
  have hin : l.Describes { ctx with indent := ctx.indent + levels } s :=
    ⟨hl.read_eq, hl.supply_eq⟩
  obtain ⟨l', hl', hq⟩ := hm hin hm₁
  exact ⟨l', ⟨hl'.read_eq, hl'.supply_eq⟩, hq⟩

end Leads

namespace Grows

theorem leads (hm : Grows l Q m) : Leads l Q m := Leads.mono hm fun _ _ h => h.2

theorem pure {a : α} (h : Q l a) : Grows l Q (pure a) := by
  intro ctx s a' ctx' s' hl hok
  obtain ⟨rfl, rfl, rfl⟩ := pure_eq_ok.1 hok
  exact ⟨l, hl, .refl l, h⟩

theorem throw (e : CompileError) : Grows l Q (throw e) := Leads.throw e

theorem bind {f : α → CompileM β} (hm : Grows l Q m)
    (hf : ∀ l' a, l.Grows l' → Q l' a → Grows l' R (f a)) : Grows l R (m >>= f) :=
  Leads.bind hm fun l' a h =>
    (hf l' a h.1 h.2).mono fun _ _ h' => ⟨h.1.trans h'.1, h'.2⟩

theorem withContext {f : Context → CompileM α}
    (h : ∀ ctx : Context, l.read = ctx.referenceOf → Grows l Q (f ctx)) : Grows l Q (get >>= f) :=
  Leads.withContext h

/-- A step that registers nothing and builds nothing leaves the ledger as it is. -/
theorem still {P : α → Prop}
    (h : ∀ ⦃ctx : Context⦄ ⦃s : Session⦄ ⦃a : α⦄ ⦃ctx' : Context⦄ ⦃s' : Session⦄,
      outcome m ctx s = (.ok (a, ctx'), s') →
        ctx'.aliases = ctx.aliases ∧ s'.supply = s.supply ∧ P a) :
    Grows l (fun _ a => P a) m := by
  intro ctx s a ctx' s' hl hok
  obtain ⟨haliases, hsupply, hp⟩ := h hok
  refine ⟨l, ⟨?_, hl.supply_eq.trans hsupply.symm⟩, .refl l, hp⟩
  rw [hl.read_eq]
  unfold Context.referenceOf
  rw [haliases]

theorem build {b : Build α} (hb : b.Grows l Q) : Grows l Q (build b) := by
  intro ctx s a ctx' s' hl hok
  obtain ⟨rfl, rfl, rfl⟩ := build_eq_ok.1 hok
  obtain ⟨l', hread, hsupply, hgrows, hq⟩ := hb
  rw [hl.supply_eq] at hsupply hq
  exact ⟨l', ⟨hread.trans hl.read_eq, hsupply⟩, hgrows, hq⟩

theorem report (event : Event) : Grows l (fun _ _ => True) (report event) :=
  still fun _ _ _ _ _ hok => by
    obtain ⟨rfl, rfl⟩ := report_eq_ok.1 hok
    exact ⟨rfl, rfl, trivial⟩

theorem takeAlias : Grows l (fun _ _ => True) takeAlias :=
  still fun _ _ _ _ _ hok => by
    obtain ⟨-, rfl, rfl⟩ := takeAlias_eq_ok.1 hok
    exact ⟨rfl, rfl, trivial⟩

theorem bindValue (value : Value) : Grows l (fun _ _ => True) (bindValue value) :=
  still fun _ _ _ _ _ hok => by
    obtain ⟨-, rfl, rfl⟩ := bindValue_eq_ok.1 hok
    exact ⟨rfl, rfl, trivial⟩

theorem referenceOf (id : NodeId) :
    Grows l (fun l' r => l' = l ∧ r = l.read id) (referenceOf id) := by
  intro ctx s r ctx' s' hl hok
  obtain ⟨rfl, rfl, rfl⟩ := referenceOf_eq_ok.1 hok
  exact ⟨l, hl, .refl l, rfl, by rw [hl.read_eq]⟩

end Grows

end CompileM

/-! ## Registering -/

/-- What was read anywhere is read from `label` if it is among the fields, and as before if not. -/
structure Ledger.Registered (l : Ledger) (label : String) (fields : List (NodeId × String))
    (l' : Ledger) : Prop where
  supply_eq : l'.supply = l.supply
  here : ∀ f ∈ fields, ∃ g ∈ fields, l'.read f.1 = some ⟨label, g.2⟩
  elsewhere : ∀ id, id ∉ fields.map (·.1) → l'.read id = l.read id

namespace Context

theorem referenceOf_register (ctx : Context) (id id' : NodeId) (ref : Reference) :
    (ctx.register id ref).referenceOf id' = if id' = id then some ref else ctx.referenceOf id' := by
  unfold referenceOf register
  rw [List.lookup_cons]
  by_cases h : id' = id
  · rw [beq_iff_eq.2 h, if_pos h]
  · rw [beq_eq_false_iff_ne.2 h, if_neg h]

/-- A registered node is read from where it was registered last. -/
theorem referenceOf_registerAll (label : String) (id : NodeId) :
    ∀ (fields : List (NodeId × String)) (ctx : Context),
      (∃ f ∈ fields, f.1 = id ∧ (ctx.registerAll label fields).referenceOf id = some ⟨label, f.2⟩) ∨
        (id ∉ fields.map (·.1) ∧ (ctx.registerAll label fields).referenceOf id = ctx.referenceOf id)
  | [], _ => .inr ⟨List.not_mem_nil, rfl⟩
  | (id', field) :: fields, ctx => by
      rcases referenceOf_registerAll label id fields (ctx.register id' ⟨label, field⟩) with
        ⟨f, hf, hid, hread⟩ | ⟨hnot, hread⟩
      · exact .inl ⟨f, List.mem_cons_of_mem _ hf, hid, hread⟩
      · rw [referenceOf_register] at hread
        by_cases h : id = id'
        · rw [if_pos h] at hread
          exact .inl ⟨(id', field), List.mem_cons_self, h.symm, hread⟩
        · rw [if_neg h] at hread
          exact .inr ⟨by simpa [h] using hnot, hread⟩

end Context

/-- Fields of nodes that have been built can be registered. -/
theorem CompileM.registerAll_leads {label : String} {fields : List (NodeId × String)}
    (h : ∀ f ∈ fields, l.Given f.1) :
    Leads l (fun l' _ => l.Registered label fields l') (registerAll label fields) := by
  intro ctx s u ctx' s' hl hok
  obtain ⟨rfl, rfl⟩ := registerAll_eq_ok.1 hok
  have hread := fun id => Context.referenceOf_registerAll label id fields ctx
  refine ⟨⟨(ctx.registerAll label fields).referenceOf, l.supply, l.injective, ?_⟩,
    ⟨rfl, hl.supply_eq⟩, rfl, ?_, ?_⟩
  · intro id r hr
    rcases hread id with ⟨f, hf, rfl, -⟩ | ⟨-, heq⟩
    · exact h f hf
    · exact l.given_of_read ((congrFun hl.read_eq id).trans (heq.symm.trans hr))
  · intro f hf
    rcases hread f.1 with ⟨g, hg, -, hr⟩ | ⟨hnot, -⟩
    · exact ⟨g, hg, hr⟩
    · exact absurd (List.mem_map_of_mem hf) hnot
  · intro id hnot
    rcases hread id with ⟨f, hf, rfl, -⟩ | ⟨-, heq⟩
    · exact absurd (List.mem_map_of_mem hf) hnot
    · exact heq.trans (congrFun hl.read_eq id).symm

end QueryCompiler
