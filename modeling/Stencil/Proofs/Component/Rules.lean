import Stencil.Component.Instance

/-!
What reading a hole means, as rules. Nothing in them counts steps, so a derivation exists only where
the reading comes to an end; and there is at most one.
-/

namespace Stencil

namespace Deferred

variable {V α β : Type}

def Behavior (V α : Type) : Type :=
  Machine V → Except Text α → Machine V → Prop

namespace Behavior

instance : Monad (Behavior V) where
  pure a := fun m r m' => r = .ok a ∧ m' = m
  bind x g := fun m r m' =>
    (∃ a m₁, x m (.ok a) m₁ ∧ g a m₁ r m') ∨ ∃ message, x m (.error message) m' ∧ r = .error message

def Functional (x : Behavior V α) : Prop :=
  ∀ ⦃m r m' s n⦄, x m r m' → x m s n → r = s ∧ m' = n

theorem functional_pure (a : α) : Functional (pure a : Behavior V α) := by
  rintro m r m' s n ⟨rfl, rfl⟩ ⟨rfl, rfl⟩
  exact ⟨rfl, rfl⟩

theorem functional_bind {x : Behavior V α} {g : α → Behavior V β} (hx : x.Functional)
    (hg : ∀ a, (g a).Functional) : (x >>= g).Functional := by
  rintro m r m' s n (⟨a, m₁, hx₁, hg₁⟩ | ⟨e, hx₁, rfl⟩) (⟨b, m₂, hx₂, hg₂⟩ | ⟨d, hx₂, rfl⟩)
  · obtain ⟨hab, rfl⟩ := hx hx₁ hx₂
    cases hab
    exact hg a hg₁ hg₂
  · exact absurd (hx hx₁ hx₂).1 (by simp)
  · exact absurd (hx hx₁ hx₂).1 (by simp)
  · obtain ⟨hed, rfl⟩ := hx hx₁ hx₂
    cases hed
    exact ⟨rfl, rfl⟩

def Only (x : Behavior V α) (m : Machine V) (r : Except Text α) (m' : Machine V) : Prop :=
  x m r m' ∧ ∀ s n, x m s n → s = r ∧ n = m'

theorem Functional.only {x : Behavior V α} (hx : x.Functional) {m m' : Machine V}
    {r : Except Text α} (h : x m r m') : x.Only m r m' :=
  ⟨h, fun _ _ h' => hx h' h⟩

end Behavior

namespace Machine

def begin (m : Machine V) (t : Transformation V) : Machine V :=
  { m with started := m.started ++ [(t.hole, t.origin)] }

def keep (m : Machine V) (c : CellId) : Except Text V → Machine V
  | .ok v => { m with cells := m.cells.modify c fun
    | .pending t previous _ => .pending t previous (some v)
    | cell => cell }
  | .error _ => m

def push (m : Machine V) (cell : Cell V) : Machine V :=
  { m with cells := m.cells ++ [cell] }

end Machine

mutual

/-- The value of a hole of a frame. A transformation runs where its own hole holds what it
replaces. -/
inductive Forces (zero : Text → V) :
    Frame → Text → Machine V → Except Text V → Machine V → Prop where
  | unset {f hole m} : f.find? hole = none → Forces zero f hole m (.ok (zero hole)) m
  | concrete {f hole m c v} : f.find? hole = some c → m.cells[c]? = some (.concrete v) →
      Forces zero f hole m (.ok v) m
  | kept {f hole m c t previous v} : f.find? hole = some c →
      m.cells[c]? = some (.pending t previous (some v)) → Forces zero f hole m (.ok v) m
  | ran {f hole m c t previous r f' m'} : f.find? hole = some c →
      m.cells[c]? = some (.pending t previous none) →
      Runs zero (f.bind hole previous) t.program (m.begin t) r f' m' →
      Forces zero f hole m r (m'.keep c r)

inductive Runs (zero : Text → V) :
    Frame → Program V → Machine V → Except Text V → Frame → Machine V → Prop where
  | value {f v m} : Runs zero f (.value v) m (.ok v) f m
  | panic {f message m} : Runs zero f (.panic message) m (.error message) f m
  | get {f hole next m v m₁ r f' m'} : Forces zero f hole m (.ok v) m₁ →
      Runs zero f (next v) m₁ r f' m' → Runs zero f (.get hole next) m r f' m'
  | stop {f hole next m message m'} : Forces zero f hole m (.error message) m' →
      Runs zero f (.get hole next) m (.error message) f m'
  | set {f hole v next m r f' m'} :
      Runs zero (f.bind hole (some m.cells.length)) next (m.push (.concrete v)) r f' m' →
      Runs zero f (.set hole v next) m r f' m'

end

inductive Copies : Option CellId → Machine V → Option CellId → Machine V → Prop where
  | none {m} : Copies none m none m
  | concrete {m c v} : m.cells[c]? = some (.concrete v) → Copies (some c) m (some c) m
  | pending {m c t previous kept copy m'} : m.cells[c]? = some (.pending t previous kept) →
      Copies previous m copy m' →
      Copies (some c) m (some m'.cells.length) (m'.push (.pending t copy none))

inductive CopiesAll :
    List (Text × CellId) → Machine V → List (Text × CellId) → Machine V → Prop where
  | nil {m} : CopiesAll [] m [] m
  | cons {hole c holes m copy m₁ copies m'} : Copies (some c) m (some copy) m₁ →
      CopiesAll holes m₁ copies m' →
      CopiesAll ((hole, c) :: holes) m ((hole, copy) :: copies) m'

def passes (f : Frame) : Behavior V Frame :=
  fun m r m' => ∃ holes, r = .ok { holes := holes, inPass := true } ∧ CopiesAll f.holes m holes m'

theorem Forces.of_pending {zero : Text → V} {f : Frame} {hole : Text} {m m' : Machine V}
    {r : Except Text V} {c : CellId} {t : Transformation V} {previous : Option CellId}
    (h : Forces zero f hole m r m') (hf : f.find? hole = some c)
    (hc : m.cells[c]? = some (.pending t previous none)) :
    ∃ f' m₁, Runs zero (f.bind hole previous) t.program (m.begin t) r f' m₁ ∧
      m' = m₁.keep c r := by
  cases h with
  | unset hf' => exact absurd (hf'.symm.trans hf) (by simp)
  | concrete hf' hc' =>
    cases hf'.symm.trans hf
    exact absurd (hc'.symm.trans hc) (by simp)
  | kept hf' hc' =>
    cases hf'.symm.trans hf
    exact absurd (hc'.symm.trans hc) (by simp)
  | ran hf' hc' hrun =>
    cases hf'.symm.trans hf
    cases hc'.symm.trans hc
    exact ⟨_, _, hrun, rfl⟩

theorem Forces.unique {zero : Text → V} {f : Frame} {hole : Text} {m m' n : Machine V}
    {r s : Except Text V} (h : Forces zero f hole m r m') (h' : Forces zero f hole m s n) :
    r = s ∧ m' = n := by
  refine @Forces.rec V zero
    (fun f hole m r m' _ => ∀ {s n}, Forces zero f hole m s n → r = s ∧ m' = n)
    (fun f p m r f' m' _ => ∀ {s g n}, Runs zero f p m s g n → r = s ∧ f' = g ∧ m' = n)
    ?unset ?concrete ?kept ?ran ?value ?panic ?get ?stop ?set f hole m r m' h s n h'
  case unset => intro _ _ _ hf _ _ h'; cases h' <;> simp_all
  case concrete => intro _ _ _ _ _ hf hc _ _ h'; cases h' <;> simp_all
  case kept => intro _ _ _ _ _ _ _ hf hc _ _ h'; cases h' <;> simp_all
  case ran =>
    intro f hole m c t previous r f' m' hf hc _ ih s n h'
    obtain ⟨g, n₁, hrun, rfl⟩ := h'.of_pending hf hc
    obtain ⟨rfl, -, rfl⟩ := ih hrun
    exact ⟨rfl, rfl⟩
  case value => intro _ _ _ _ _ _ h'; cases h'; exact ⟨rfl, rfl, rfl⟩
  case panic => intro _ _ _ _ _ _ h'; cases h'; exact ⟨rfl, rfl, rfl⟩
  case get =>
    intro f hole next m v m₁ r f' m' _ _ ihforce ihrun s g n h'
    cases h' with
    | get hforce hrun =>
      obtain ⟨hv, rfl⟩ := ihforce hforce
      cases hv
      exact ihrun hrun
    | stop hforce => exact absurd (ihforce hforce).1 (by simp)
  case stop =>
    intro f hole next m message m' _ ihforce s g n h'
    cases h' with
    | get hforce hrun => exact absurd (ihforce hforce).1 (by simp)
    | stop hforce =>
      obtain ⟨hs, rfl⟩ := ihforce hforce
      exact ⟨hs, rfl, rfl⟩
  case set =>
    intro f hole v next m r f' m' _ ihrun s g n h'
    cases h' with
    | set hrun => exact ihrun hrun

theorem Forces.functional (zero : Text → V) (f : Frame) (hole : Text) :
    Behavior.Functional (Forces zero f hole) :=
  fun _ _ _ _ _ h h' => h.unique h'

theorem Copies.unique {c r s : Option CellId} {m m' n : Machine V}
    (h : Copies c m r m') (h' : Copies c m s n) : r = s ∧ m' = n := by
  induction h generalizing s n with
  | none => cases h'; exact ⟨rfl, rfl⟩
  | concrete hc => cases h' <;> simp_all
  | pending hc hcopy ih =>
    cases h' with
    | concrete hc' => simp_all
    | pending hc' hcopy' =>
      cases hc.symm.trans hc'
      obtain ⟨rfl, rfl⟩ := ih hcopy'
      exact ⟨rfl, rfl⟩

theorem CopiesAll.unique {holes copies copies' : List (Text × CellId)} {m m' n : Machine V}
    (h : CopiesAll holes m copies m') (h' : CopiesAll holes m copies' n) :
    copies = copies' ∧ m' = n := by
  induction h generalizing copies' n with
  | nil => cases h'; exact ⟨rfl, rfl⟩
  | cons hcopy _ ih =>
    cases h' with
    | cons hcopy' hrest' =>
      obtain ⟨hc, rfl⟩ := hcopy.unique hcopy'
      obtain ⟨rfl, rfl⟩ := ih hrest'
      cases hc
      exact ⟨rfl, rfl⟩

theorem passes_functional (f : Frame) : (passes f : Behavior V Frame).Functional := by
  rintro m _ m' _ n ⟨holes, rfl, h⟩ ⟨holes', rfl, h'⟩
  obtain ⟨rfl, rfl⟩ := h.unique h'
  exact ⟨rfl, rfl⟩

end Deferred

namespace Expr

structure Compatible {m n : Type → Type} [Monad m] [Monad n]
    (R : ∀ α : Type, m α → n α → Prop) : Prop where
  pure {α : Type} (a : α) : R α (Pure.pure a) (Pure.pure a)
  bind {α β : Type} {x : m α} {y : n α} {g : α → m β} {k : α → n β} :
    R α x y → (∀ a, R β (g a) (k a)) → R β (x >>= g) (y >>= k)

mutual

theorem value_related {m n : Type → Type} [Monad m] [Monad n]
    {R : ∀ α : Type, m α → n α → Prop} (hR : Compatible R) (read : Text → m Value)
    (read' : Text → n Value) (hread : ∀ hole, R _ (read hole) (read' hole)) (locals : Locals)
    (e : Expr) : R _ (e.value read locals) (e.value read' locals) :=
  match e with
  | .quoted _ | .comment _ | .nil | .bound _ => hR.pure _
  | .read hole => hread hole
  | .cloneAll e => value_related hR _ _ hread locals e
  | .callString e _ | .callFragment e _ | .text e | .doctype _ e | .item _ _ e =>
    hR.bind (value_related hR _ _ hread locals e) fun _ => hR.pure _
  | .concat es | .attributes es =>
    hR.bind (values_related hR _ _ hread locals es) fun _ => hR.pure _
  | .add l r =>
    hR.bind (value_related hR _ _ hread locals l) fun _ =>
      hR.bind (value_related hR _ _ hread locals r) fun _ => hR.pure _
  | .element _ _ attrs children =>
    hR.bind (value_related hR _ _ hread locals attrs) fun _ =>
      hR.bind (values_related hR _ _ hread locals children) fun _ => hR.pure _
  | .unlessEmpty name e isString result =>
    hR.bind (value_related hR _ _ hread locals e) fun v => by
      split
      · exact hR.pure _
      · exact value_related hR _ _ hread (locals.bind name v) result

theorem values_related {m n : Type → Type} [Monad m] [Monad n]
    {R : ∀ α : Type, m α → n α → Prop} (hR : Compatible R) (read : Text → m Value)
    (read' : Text → n Value) (hread : ∀ hole, R _ (read hole) (read' hole)) (locals : Locals)
    (es : List Expr) : R _ (values read locals es) (values read' locals es) :=
  match es with
  | [] => hR.pure _
  | e :: rest =>
    hR.bind (value_related hR _ _ hread locals e) fun _ =>
      hR.bind (values_related hR _ _ hread locals rest) fun _ => hR.pure _

end

end Expr

namespace Blueprint

open Deferred

def gets (b : Blueprint) (f : Frame) (hole : Text) : Behavior Value Value := do
  let inside ← if f.inPass then pure f else passes f
  Forces b.zero inside hole

def renders (b : Blueprint) (f : Frame) : Behavior Value (List Markup.Node) := do
  let inside ← passes f
  return (← b.body.value (m := Behavior Value) (Forces b.zero inside) {}).asNodes

theorem gets_functional (b : Blueprint) (f : Frame) (hole : Text) : (b.gets f hole).Functional := by
  unfold gets
  split
  · exact Behavior.functional_bind (Behavior.functional_pure f) fun inside =>
      Forces.functional b.zero inside hole
  · exact Behavior.functional_bind (passes_functional f) fun inside =>
      Forces.functional b.zero inside hole

theorem renders_functional (b : Blueprint) (f : Frame) : (b.renders f).Functional := by
  refine Behavior.functional_bind (passes_functional f) fun inside => ?_
  refine Behavior.functional_bind ?_ fun v => Behavior.functional_pure v.asNodes
  have hR : Expr.Compatible (n := Behavior Value) fun α (x : Behavior Value α) _ => x.Functional :=
    ⟨Behavior.functional_pure, Behavior.functional_bind⟩
  exact Expr.value_related hR _ (Forces b.zero inside) (Forces.functional b.zero inside) {} b.body

end Blueprint

end Stencil
