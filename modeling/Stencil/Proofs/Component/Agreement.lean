import Stencil.Proofs.Component.Worth
import Stencil.Proofs.Evaluate.Agreement

namespace Stencil

namespace Deferred

variable {V α : Type}

def Pile.put (holds : Text → Pile V) (hole : Text) (pile : Pile V) : Text → Pile V :=
  fun other => if other = hole then pile else holds other

def Shows (holds : Text → Pile V) (m : Machine V) (f : Frame) : Prop :=
  ∀ hole, Piled m (f.find? hole) (holds hole)

namespace Shows

variable {holds : Text → Pile V} {m m' : Machine V} {f : Frame}

theorem grows {own : CellId → Transformation V → Prop} (h : Shows holds m f) (hm : Grows own m m') :
    Shows holds m' f :=
  fun hole => (h hole).grows hm

theorem bind (h : Shows holds m f) {hole : Text} {c : Option CellId} {pile : Pile V}
    (hpile : Piled m c pile) : Shows (Pile.put holds hole pile) m (f.bind hole c) := by
  intro other
  rw [Frame.find?_bind, Pile.put]
  split
  · exact hpile
  · exact h other

theorem set (h : Shows holds m f) (hole : Text) (v : V) :
    Shows (Pile.put holds hole (.value v)) (m.push (.concrete v))
      (f.bind hole (some m.cells.length)) := by
  have hpush : Shows holds (m.push (.concrete v)) f := fun other => (h other).push _
  exact hpush.bind (.value (Machine.push_cells_new m _))

theorem update (h : Shows holds m f) (hole : Text) (t : Transformation V) :
    Shows (Pile.put holds hole (.update t.program (holds hole)))
      (m.push (.pending t (f.find? hole) none)) (f.bind hole (some m.cells.length)) := by
  have hpush : Shows holds (m.push (.pending t (f.find? hole) none)) f :=
    fun other => (h other).push _
  exact hpush.bind (.update (Machine.push_cells_new m _) (hpush hole))

end Shows

namespace ReadsWithin

variable {may : Text → Text → Prop} {holds : Text → Pile V}

theorem put (h : ReadsWithin may holds) {hole : Text} {pile : Pile V}
    (hpile : pile.ReadsOnly (may hole)) : ReadsWithin may (Pile.put holds hole pile) := by
  intro other
  rw [Pile.put]
  split
  next heq => exact heq ▸ hpile
  · exact h other

theorem set (h : ReadsWithin may holds) (hole : Text) (v : V) :
    ReadsWithin may (Pile.put holds hole (.value v)) :=
  h.put trivial

theorem update (h : ReadsWithin may holds) {hole : Text} {p : Program V}
    (hp : p.ReadsOnly (may hole)) :
    ReadsWithin may (Pile.put holds hole (.update p (holds hole))) :=
  h.put ⟨hp, h hole⟩

end ReadsWithin

theorem pass_bind_grows {given : List (Transformation V)} {m : Machine V} {f : Frame}
    (hout : Outside given m f) {x : Frame → Run V α} {y : Frame → Behavior V α}
    (hx : ∀ {n m inside}, Inside n m inside → Meets n inside m (x inside) (y inside)) :
    Grows (fun _ _ => False) m ((pass f >>= x).run.run m).2 := by
  obtain ⟨inside, m₁, hpass, ⟨copies, -, hcopies⟩, -, hin, -⟩ := pass_copies hout
  obtain ⟨r, m', ran, hrun, -, hran⟩ := hx hin
  rw [(bind_run_ok hpass).trans hrun]
  exact hcopies.grows.trans (hran.grows.weaken fun _ _ => False.elim)

end Deferred

open Deferred

namespace Blueprint

def initial (b : Blueprint) : Text → Pile Value :=
  b.symbols.entries.foldl (fun holds entry => Pile.put holds entry.1 (.value (Value.zero entry.2)))
    fun _ => .unset

theorem construct_shows (b : Blueprint) {m : Machine Value} {f : Frame}
    (h : b.construct.run {} = (f, m)) : Shows b.initial m f := by
  have hfold : ∀ (entries : List (Text × HoleType)) {m' : Machine Value} {g : Frame}
      {holds : Text → Pile Value}, Shows holds m' g →
      (entries.foldlM (m := StateM (Machine Value)) (fun f entry => do
        let c ← alloc (.concrete (Value.zero entry.2))
        return f.bind entry.1 (some c)) g).run m' = (f, m) →
      Shows (entries.foldl (fun holds entry =>
        Pile.put holds entry.1 (.value (Value.zero entry.2))) holds) m f := by
    intro entries
    induction entries with
    | nil =>
      intro m' g holds hshows hrun
      cases hrun
      exact hshows
    | cons entry entries ih =>
      intro m' g holds hshows hrun
      rw [List.foldlM_cons] at hrun
      exact ih (hshows.set entry.1 (Value.zero entry.2)) hrun
  exact hfold b.symbols.entries (fun _ => .unset) h

theorem initial_readsWithin (b : Blueprint) (may : Text → Text → Prop) :
    ReadsWithin may b.initial := by
  have hfold : ∀ (entries : List (Text × HoleType)) {holds : Text → Pile Value},
      ReadsWithin may holds → ReadsWithin may (entries.foldl (fun holds entry =>
        Pile.put holds entry.1 (.value (Value.zero entry.2))) holds) := by
    intro entries
    induction entries with
    | nil => exact id
    | cons entry entries ih => exact fun h => ih (h.set entry.1 _)
  exact hfold b.symbols.entries fun _ => trivial

theorem read_outside (b : Blueprint) {f : Frame} (hf : f.inPass = false) (hole : Text) :
    b.read f hole = pass f >>= fun inside => Deferred.read b.zero inside hole := by
  rw [read, hf]
  rfl

def readAll (b : Blueprint) (f : Frame) (holes : List Text) : Run Value (List Value) := do
  let inside ← pass f
  holes.mapM (Deferred.read b.zero inside)

end Blueprint

namespace Instance

/-- The states of an instance, with what their holes hold. Reads change nothing there. -/
inductive Holding (b : Blueprint) : (Text → Pile Value) → Instance → Prop where
  | new : Holding b b.initial (Instance.new b)
  | zero : Holding b (fun _ => .unset) {}
  | set {holds i} (hole : Text) (v : Value) : Holding b holds i →
      Holding b (Pile.put holds hole (.value v)) (i.run b (.set hole (.value v))).2
  | update {holds i} (hole : Text) (p : Program Value) : Holding b holds i →
      Holding b (Pile.put holds hole (.update p (holds hole))) (i.run b (.update hole p)).2
  | get {holds i} (hole : Text) : Holding b holds i → Holding b holds (i.run b (.get hole)).2
  | render {holds i} : Holding b holds i → Holding b holds (i.run b .render).2

namespace Holding

variable {b : Blueprint} {holds : Text → Pile Value} {i : Instance}

theorem outside (h : Holding b holds i) : ∃ given, Outside given i.machine i.frame := by
  suffices hreached : ∃ given, Reached b given i from hreached.imp fun _ => Reached.outside
  induction h with
  | new => exact ⟨_, .new⟩
  | zero => exact ⟨_, .zero⟩
  | update hole p _ ih => exact ih.elim fun _ hreached => ⟨_, hreached.update hole p⟩
  | set hole v _ ih => exact ih.elim fun _ hreached => ⟨_, .other _ (by simp) hreached⟩
  | get hole _ ih => exact ih.elim fun _ hreached => ⟨_, .other _ (by simp) hreached⟩
  | render _ ih => exact ih.elim fun _ hreached => ⟨_, .other _ (by simp) hreached⟩

theorem shows (h : Holding b holds i) : Shows holds i.machine i.frame := by
  induction h with
  | new => exact b.construct_shows rfl
  | zero => exact fun _ => .unset
  | @update _ i hole p _ ih => exact ih.update hole ⟨p, hole, i.machine.cells.length⟩
  | set hole v _ ih => exact ih.set hole v
  | @get holds i hole hi ih =>
    obtain ⟨given, hout⟩ := hi.outside
    have hgrows := pass_bind_grows hout fun hin => Deferred.read_meets b.zero hin hole
    rw [← b.read_outside hout.outside] at hgrows
    exact ih.grows hgrows
  | @render holds i hi ih =>
    obtain ⟨given, hout⟩ := hi.outside
    exact ih.grows (pass_bind_grows hout fun hin =>
      .bind hin (b.value_meets hin b.body) fun v m₁ _ => .pure _ _ m₁ v.asNodes)

end Holding

def ReadsAgree (b : Blueprint) (i : Instance) : Prop :=
  ∃ v : Text → Value,
    (∀ hole, (i.run b (.get hole)).1 = .ok (.value (v hole))) ∧
    (i.run b .render).1 = .ok (.nodes (b.body.value (m := Id) v {}).asNodes) ∧
    ∀ holes, ((b.readAll i.frame holes).run.run i.machine).1 = .ok (holes.map v)

end Instance

namespace Deferred.Faithful

variable {b : Blueprint} {holds : Text → Pile Value} {n : Nat} {inside : Frame} {m : Machine Value}
  {v : Text → Value}

theorem value (h : Faithful b.zero holds n inside m)
    (hv : ∀ hole, Worth b.zero holds [] hole (holds hole) (v hole)) (e : Expr) :
    ∃ m', (e.value (Deferred.read b.zero inside) {}).run.run m =
      (.ok (e.value (m := Id) v {}), m') := by
  have hR : Expr.Compatible fun α (x : Run Value α) (a : Id α) =>
      ∀ m, Faithful b.zero holds n inside m →
        ∃ m', x.run.run m = (.ok a, m') ∧ Faithful b.zero holds n inside m' := by
    refine ⟨fun a m hm => ⟨m, rfl, hm⟩, fun hx hg m hm => ?_⟩
    obtain ⟨m₁, hrun, hm₁⟩ := hx m hm
    obtain ⟨m', hrun', hm'⟩ := hg _ m₁ hm₁
    exact ⟨m', (bind_run_ok hrun).trans hrun', hm'⟩
  obtain ⟨m', hrun, -⟩ :=
    Expr.value_related hR _ v (fun hole m hm => hm.read hv hole) {} e m h
  exact ⟨m', hrun⟩

theorem readAll (h : Faithful b.zero holds n inside m)
    (hv : ∀ hole, Worth b.zero holds [] hole (holds hole) (v hole)) (holes : List Text) :
    ∃ m', (holes.mapM (Deferred.read b.zero inside)).run.run m = (.ok (holes.map v), m') := by
  induction holes generalizing m with
  | nil => exact ⟨m, rfl⟩
  | cons hole holes ih =>
    obtain ⟨m₁, hrun, hpass⟩ := h.read hv hole
    obtain ⟨m', hrest⟩ := ih hpass
    rw [List.mapM_cons]
    exact ⟨m', (bind_run_ok hrun).trans ((bind_run_ok hrest).trans rfl)⟩

end Deferred.Faithful

namespace Instance

/-- Where every hole is worth something, reads agree with the rendering. -/
theorem reads_agree_render {b : Blueprint} {holds : Text → Pile Value} {i : Instance}
    (h : Holding b holds i) (hworth : ∀ hole, ∃ v, Worth b.zero holds [] hole (holds hole) v) :
    ReadsAgree b i := by
  obtain ⟨given, hout⟩ := h.outside
  choose v hv using hworth
  obtain ⟨inside, m, hpass, hfaithful⟩ := pass_faithful hout h.shows
  refine ⟨v, fun hole => ?_, ?_, fun holes => ?_⟩
  · obtain ⟨m', hrun, -⟩ := hfaithful.read hv hole
    have hread : (b.read i.frame hole).run.run i.machine = (.ok (v hole), m') := by
      rw [b.read_outside hout.outside]
      exact (bind_run_ok hpass).trans hrun
    simp only [run, hread]
    rfl
  · obtain ⟨m', hrun⟩ := hfaithful.value hv b.body
    have hrender : (b.render i.frame).run.run i.machine =
        (.ok (b.body.value (m := Id) v {}).asNodes, m') :=
      (bind_run_ok hpass).trans ((bind_run_ok hrun).trans rfl)
    simp only [run, hrender]
    rfl
  · obtain ⟨m', hrun⟩ := hfaithful.readAll hv holes
    have hreads : (b.readAll i.frame holes).run.run i.machine = (.ok (holes.map v), m') :=
      (bind_run_ok hpass).trans hrun
    rw [hreads]

theorem reads_agree_render_oneWay :
    ∃ holds i, Holding Card.blueprint holds i ∧ ReadsAgree Card.blueprint i ∧
      (i.run Card.blueprint .render).2.machine.started =
        [(utf8 "title", 7), (utf8 "label", 6)] := by
  have h : Holding Card.blueprint _ _ :=
    .update (utf8 "title")
      (.get (utf8 "label") fun v => .value (.nodes (Markup.textNodes v.asText)))
      (.update (utf8 "label")
        (.get (utf8 "url") fun u =>
          .get (utf8 "label") fun v => .value (.text (v.asText ++ u.asText)))
        (.set (utf8 "url") (.text (utf8 "home")) .new))
  let rank (hole : Text) : Nat :=
    if hole = utf8 "title" then 2 else if hole = utf8 "label" then 1 else 0
  refine ⟨_, _, h, reads_agree_render h (exists_worth rank ?_), by decide +kernel⟩
  refine .update (.update ((Card.blueprint.initial_readsWithin _).set _ _) ?_) ?_
  · exact ⟨.inr (by decide), fun _ => ⟨.inl rfl, fun _ => trivial⟩⟩
  · exact ⟨.inr (by decide), fun _ => trivial⟩

def got (b : Blueprint) (i : Instance) (hole : Text) : Value :=
  match (i.run b (.get hole)).1 with
  | .ok (.value v) => v
  | _ => b.zero hole

def showsReads (b : Blueprint) (i : Instance) : Bool :=
  match (i.run b .render).1 with
  | .ok (.nodes list) =>
    Markup.Node.equalAll list (b.body.value (m := Id) (i.got b) {}).asNodes
  | _ => false

theorem ReadsAgree.showsReads {b : Blueprint} {i : Instance} (h : ReadsAgree b i) :
    i.showsReads b = true := by
  obtain ⟨v, hget, hrender, -⟩ := h
  have hgot : i.got b = v := by
    funext hole
    rw [got, hget]
  rw [Instance.showsReads, hrender, hgot]
  exact Markup.Node.equalAll_refl _

/-- A title that reads the label and a label that reads the title. Alone, the label sees a title;
in a rendering it is the title that asks for it, and it sees none. -/
theorem reads_disagree_crossed :
    ∃ holds i, Holding Card.blueprint holds i ∧ ReadsWithin (fun _ _ => True) holds ∧
      ¬ ReadsAgree Card.blueprint i := by
  have h : Holding Card.blueprint _ _ :=
    .update (utf8 "label")
      (.get (utf8 "title") fun v =>
        .value (.text (if v.asNodes.isEmpty then utf8 "early" else utf8 "late")))
      (.update (utf8 "title")
        (.get (utf8 "label") fun v => .value (.nodes [.text v.asText])) .new)
  refine ⟨_, _, h, ?_, fun hagree => absurd hagree.showsReads (by decide +kernel)⟩
  refine .update (.update (Card.blueprint.initial_readsWithin _) ?_) ?_
  · exact ⟨trivial, fun _ => trivial⟩
  · exact ⟨trivial, fun _ => trivial⟩

end Instance

end Stencil
