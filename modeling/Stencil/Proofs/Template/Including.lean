import Stencil.Proofs.Result
import Stencil.Template.Document
import Mathlib.Data.List.Perm.Subperm

namespace Stencil

namespace Page

structure Compatible (R : ∀ α : Type, Expand α → Expand α → Prop) : Prop where
  pure {α : Type} (a : α) : R α (Pure.pure a) (Pure.pure a)
  bind {α β : Type} {x y : Expand α} {f g : α → Expand β} :
    R α x y → (∀ a, R β (f a) (g a)) → R β (x >>= f) (y >>= g)
  fault {α : Type} (file : Text) (e : TextError) : R α (Page.fault file e) (Page.fault file e)

section Related

variable {R : ∀ α : Type, Expand α → Expand α → Prop}
  {included included' : Site → Text → Expand (List PageNode)}

theorem Compatible.mapM (hR : Compatible R) {α β : Type} {f g : α → Expand β}
    (h : ∀ a, R β (f a) (g a)) (list : List α) : R _ (list.mapM f) (list.mapM g) := by
  induction list with
  | nil => exact hR.pure []
  | cons a list ih =>
    rw [List.mapM_cons, List.mapM_cons]
    exact hR.bind (h a) fun b => hR.bind ih fun bs => hR.pure (b :: bs)

theorem includeAll_related (hR : Compatible R) {site : Site}
    (h : ∀ arg, R _ (included site arg) (included' site arg)) (args : List Text) :
    R _ (includeAll included site args) (includeAll included' site args) := by
  cases args with
  | nil => exact hR.fault _ _
  | cons arg args => exact hR.bind (hR.mapM h _) fun parts => hR.pure parts.flatten

mutual

theorem expandNode_related (hR : Compatible R) {site : Site}
    (h : ∀ arg, R _ (included site arg) (included' site arg)) (n : Markup.Node) :
    R _ (expandNode included site n) (expandNode included' site n) := by
  cases n with
  | document children =>
    rw [expandNode, expandNode]
    exact expandAll_related hR h children
  | element ns tag attrs children =>
    rw [expandNode, expandNode]
    split
    · exact hR.fault _ _
    · split
      · refine hR.bind (includeAll_related hR h _) fun content => ?_
        split <;> exact hR.pure _
      · exact hR.bind (expandAll_related hR h children) fun content => hR.pure _
  | text data => exact hR.pure _
  | comment data => exact hR.pure _
  | doctype name attrs => exact hR.pure _
  | raw data => exact hR.pure _
  | error data => exact hR.pure _

theorem expandAll_related (hR : Compatible R) {site : Site}
    (h : ∀ arg, R _ (included site arg) (included' site arg)) (nodes : List Markup.Node) :
    R _ (expandAll included site nodes) (expandAll included' site nodes) := by
  cases nodes with
  | nil => exact hR.pure []
  | cons n rest =>
    rw [expandAll, expandAll]
    exact hR.bind (expandNode_related hR h n) fun first =>
      hR.bind (expandAll_related hR h rest) fun others => hR.pure (first ++ others)

end

end Related

end Page

def FileSystem.Holds (fs : FileSystem) (sources : Page.Sources) : Prop :=
  ∀ entry ∈ sources.files, fs.read entry.1 = .ok entry.2

namespace Page

namespace Sources

theorem mem_files_of_find? {sources : Sources} {name content : Text}
    (h : sources.find? name = some content) : (name, content) ∈ sources.files := by
  obtain ⟨before, after, hfiles, -⟩ := List.lookup_eq_some_iff.mp h
  rw [hfiles]
  simp

theorem prefix_record (sources : Sources) (name content : Text) :
    sources.files <+: (sources.record name content).files := by
  unfold record
  split
  · exact List.prefix_rfl
  · exact List.prefix_append _ _

theorem mem_names_record (sources : Sources) (name content : Text) :
    name ∈ (sources.record name content).names := by
  unfold record
  split
  next h => exact List.mem_map_of_mem (mem_files_of_find? h)
  · simp [names]

end Sources

end Page

namespace FileSystem

theorem Holds.record {fs : FileSystem} {sources : Page.Sources} {name content : Text}
    (h : fs.Holds sources) (hread : fs.read name = .ok content) :
    fs.Holds (sources.record name content) := by
  unfold Page.Sources.record
  split
  · exact h
  · intro entry hentry
    rcases List.mem_append.mp hentry with hentry | hentry
    · exact h entry hentry
    · rw [List.mem_singleton.mp hentry]
      exact hread

theorem Holds.of_later {fs : FileSystem} {sources sources' : Page.Sources}
    (h : fs.Holds sources') (hpre : sources.files <+: sources'.files) : fs.Holds sources :=
  fun entry hentry => h entry (hpre.subset hentry)

theorem Holds.mem_names {fs : FileSystem} {sources : Page.Sources} (h : fs.Holds sources)
    {name : Text} (hname : name ∈ sources.names) : name ∈ fs.names := by
  obtain ⟨entry, hentry, rfl⟩ := List.mem_map.mp hname
  exact fs.mem_names (h entry hentry)

theorem Holds.read_of_record {fs fs' : FileSystem} {sources : Page.Sources} {name content : Text}
    (h : fs.Holds sources) (hread : fs.read name = .ok content)
    (h' : fs'.Holds (sources.record name content)) : fs'.read name = .ok content := by
  obtain ⟨entry, hentry, hname⟩ := List.mem_map.mp (sources.mem_names_record name content)
  have hsame := (h.record hread) entry hentry
  have hsame' := h' entry hentry
  rw [hname] at hsame hsame'
  rw [hsame', ← hsame, hread]

end FileSystem

namespace Page

variable {fs fs' : FileSystem} {seen : List Text}

/-- Where `x` comes to an end on `fs`, it has only added to what was read, and `y` ends in the same
way if `fs'` holds all of that. The files of `seen` have been read before. -/
def Repeats (fs fs' : FileSystem) (seen : List Text) (α : Type) (x y : Expand α) : Prop :=
  ∀ s a s', fs.Holds s → seen ⊆ s.names → x.run s = .ok (a, s') →
    fs.Holds s' ∧ s.files <+: s'.files ∧ (fs'.Holds s' → y.run s = .ok (a, s'))

theorem run_bind {α β : Type} (x : Expand α) (f : α → Expand β) (s : Sources) :
    (x >>= f).run s =
      match x.run s with
      | .ok (a, s') => (f a).run s'
      | .error e => .error e := by
  have hrun : (x >>= f).run s = (x.run s).bind fun p => (f p.1).run p.2 := rfl
  rw [hrun]
  cases x.run s <;> rfl

theorem run_throw {α : Type} (e : TemplateError) (s : Sources) :
    (throw e : Expand α).run s = .error e := rfl

theorem names_subset {s s' : Sources} (h : s.files <+: s'.files) : s.names ⊆ s'.names :=
  List.map_subset _ h.subset

theorem compatible_repeats (fs fs' : FileSystem) (seen : List Text) :
    Compatible (Repeats fs fs' seen) where
  pure := by
    rintro α a s _ _ hs - ⟨rfl⟩
    exact ⟨hs, List.prefix_rfl, fun _ => rfl⟩
  bind := by
    intro α β x y f g hx hf s b s' hs hseen hrun
    rw [run_bind] at hrun
    rcases hx₁ : x.run s with e | ⟨a, s₁⟩
    · rw [hx₁] at hrun
      cases hrun
    · rw [hx₁] at hrun
      obtain ⟨hs₁, hpre₁, hy⟩ := hx s a s₁ hs hseen hx₁
      have hseen₁ := List.Subset.trans hseen (names_subset hpre₁)
      obtain ⟨hs', hpre, hg⟩ := hf a s₁ b s' hs₁ hseen₁ hrun
      refine ⟨hs', hpre₁.trans hpre, fun h' => ?_⟩
      rw [run_bind, hy (h'.of_later hpre)]
      exact hg h'
  fault := by
    intro α file e s a s' hs hseen hrun
    cases hrun

theorem contentNodes_related {R : ∀ α : Type, Expand α → Expand α → Prop} (hR : Compatible R)
    {expand expand' : List Markup.Node → Expand (List PageNode)}
    (h : ∀ nodes, R _ (expand nodes) (expand' nodes)) (target content : Text) :
    R _ (contentNodes expand target content) (contentNodes expand' target content) := by
  have hmarked (nodes : List Markup.Node) :
      R _ (contentNodes.marked expand target nodes) (contentNodes.marked expand' target nodes) :=
    hR.bind (h nodes) fun page => hR.pure _
  unfold contentNodes
  split
  · exact hmarked _
  · exact hmarked _
  · exact hR.pure _

theorem openFile_run_ok {fs : FileSystem} {active : List Text} {site : Site} {arg : Text}
    {next : Text → Text → Expand (List PageNode)} {s s' : Sources} {nodes : List PageNode} :
    (openFile fs active site arg next).run s = .ok (nodes, s') ↔
      Path.isValid (targetOf site.dir arg) ∧ targetOf site.dir arg ∉ active ∧
        ∃ content, fs.read (targetOf site.dir arg) = .ok content ∧
          (next (targetOf site.dir arg) content).run (s.record (targetOf site.dir arg) content) =
            .ok (nodes, s') := by
  unfold openFile
  dsimp only
  split
  next hvalid =>
    rw [run_throw]
    simp_all
  next hvalid =>
    split
    next hactive =>
      rw [run_throw]
      simp_all
    next hactive =>
      cases hread : fs.read (targetOf site.dir arg) with
      | error e =>
        dsimp only
        rw [run_throw]
        simp
      | ok content => simp_all

theorem repeats_throw {α : Type} (e : TemplateError) (y : Expand α) :
    Repeats fs fs' seen α (throw e) y := by
  intro s a s' _ _ hrun
  cases hrun

theorem openFile_repeats {active : List Text} {site : Site} {arg : Text}
    {next next' : Text → Text → Expand (List PageNode)}
    (h : targetOf site.dir arg ∉ active → ∀ content,
      Repeats fs fs' (active ++ [targetOf site.dir arg]) _
        (next (targetOf site.dir arg) content) (next' (targetOf site.dir arg) content)) :
    Repeats fs fs' active _ (openFile fs active site arg next)
      (openFile fs' active site arg next') := by
  intro s nodes s' hs hseen hrun
  obtain ⟨hvalid, hnew, content, hread, hnext⟩ := openFile_run_ok.mp hrun
  have hgrows := s.prefix_record (targetOf site.dir arg) content
  have hseen' : active ++ [targetOf site.dir arg] ⊆
      (s.record (targetOf site.dir arg) content).names := by
    refine List.append_subset.mpr ⟨List.Subset.trans hseen (names_subset hgrows), ?_⟩
    simpa using s.mem_names_record (targetOf site.dir arg) content
  obtain ⟨hs', hpre, hagain⟩ := h hnew content _ nodes s' (hs.record hread) hseen' hnext
  refine ⟨hs', hgrows.trans hpre, fun h' => ?_⟩
  exact openFile_run_ok.mpr
    ⟨hvalid, hnew, content, hs.read_of_record hread (h'.of_later hpre), hagain h'⟩

theorem length_le_of_holds {s : Sources} {active : List Text} (hs : fs.Holds s)
    (hdistinct : active.Nodup) (hactive : active ⊆ s.names) : active.length ≤ fs.names.length :=
  (List.subperm_of_subset hdistinct fun _ hname => hs.mem_names (hactive hname)).length_le

theorem Repeats.of_length_lt {α : Type} {x y : Expand α} (h : Repeats fs fs' seen α x y)
    (hdistinct : seen.Nodup) (hlt : fs'.names.length < seen.length) (z : Expand α) :
    Repeats fs fs' seen α x z := by
  intro s a s' hs hseen hrun
  obtain ⟨hs', hpre, -⟩ := h s a s' hs hseen hrun
  refine ⟨hs', hpre, fun h' => ?_⟩
  have hle := length_le_of_holds h' hdistinct (List.Subset.trans hseen (names_subset hpre))
  omega

theorem includeFile_repeats (fs fs' : FileSystem) (fuel fuel' : Nat) (active : List Text)
    (hdistinct : active.Nodup) (hfuel : fs'.names.length ≤ fuel' + active.length) (site : Site)
    (arg : Text) :
    Repeats fs fs' active _ (includeFile fs fuel active site arg)
      (includeFile fs' fuel' active site arg) := by
  have hR := compatible_repeats fs fs' (active ++ [targetOf site.dir arg])
  induction fuel generalizing fuel' active site arg with
  | zero =>
    cases fuel' <;>
      exact openFile_repeats fun _ content =>
        contentNodes_related hR (fun _ => repeats_throw _ _) _ content
  | succ fuel ih =>
    have hchain (hnew : targetOf site.dir arg ∉ active) :
        (active ++ [targetOf site.dir arg]).Nodup := by
      simpa [List.nodup_append] using ⟨hdistinct, fun name hname heq => hnew (heq ▸ hname)⟩
    have hinside (hnew : targetOf site.dir arg ∉ active) (k : Nat)
        (hk : fs'.names.length ≤ k + (active.length + 1)) (inside : Site)
        (nodes : List Markup.Node) :
        Repeats fs fs' (active ++ [targetOf site.dir arg]) _
          (expandAll (includeFile fs fuel (active ++ [targetOf site.dir arg])) inside nodes)
          (expandAll (includeFile fs' k (active ++ [targetOf site.dir arg])) inside nodes) := by
      refine expandAll_related hR (fun arg' => ?_) nodes
      exact ih k _ (hchain hnew) (by simpa using hk) inside arg' (compatible_repeats fs fs' _)
    cases fuel' with
    | zero =>
      refine openFile_repeats fun hnew content => contentNodes_related hR (fun nodes => ?_) _ content
      refine (hinside hnew fs'.names.length (by omega) _ nodes).of_length_lt (hchain hnew) ?_ _
      simp only [List.length_append, List.length_singleton]
      omega
    | succ k =>
      refine openFile_repeats fun hnew content => contentNodes_related hR (fun nodes => ?_) _ content
      exact hinside hnew k (by omega) _ nodes

theorem expand_repeats (fs fs' : FileSystem) (name : Text) (site : Site)
    (nodes : List Markup.Node) :
    Repeats fs fs' [name] _ (expand (some fs) [name] site nodes)
      (expand (some fs') [name] site nodes) := by
  refine expandAll_related (compatible_repeats fs fs' [name]) (fun arg => ?_) nodes
  exact includeFile_repeats fs fs' _ _ [name] (by simp) (by simp) site arg

end Page

namespace Document

theorem files_of_ofPage {path : Text} {page : List PageNode} {sources : Page.Sources}
    {doc : Document} (h : ofPage path page sources = .ok doc) : doc.files = sources.names := by
  unfold ofPage at h
  split at h
  · cases h
  · cases h
    rfl

theorem read_eq_ok_iff {fs : FileSystem} {name : Text} {doc : Document} :
    read fs name = .ok doc ↔ ∃ content page sources, fs.read name = .ok content ∧
      (Page.expand (some fs) [name] ⟨name, Path.dir name⟩ (Markup.parse content)).run
        ⟨[(name, content)]⟩ = .ok (page, sources) ∧
      ofPage name page sources = .ok doc := by
  unfold read
  cases hread : fs.read name with
  | error e => simp
  | ok content =>
    simp only [bind_eq_ok_iff, Prod.exists, Except.ok.injEq]
    constructor
    · rintro ⟨page, sources, h⟩
      exact ⟨content, page, sources, rfl, h⟩
    · rintro ⟨_, page, sources, rfl, h⟩
      exact ⟨page, sources, h⟩

theorem holds_of_expand {fs : FileSystem} {name content : Text} {page : List PageNode}
    {sources : Page.Sources} (hread : fs.read name = .ok content)
    (h : (Page.expand (some fs) [name] ⟨name, Path.dir name⟩ (Markup.parse content)).run
      ⟨[(name, content)]⟩ = .ok (page, sources)) (fs' : FileSystem) :
    fs.Holds sources ∧ (name, content) ∈ sources.files ∧ (fs'.Holds sources →
      (Page.expand (some fs') [name] ⟨name, Path.dir name⟩ (Markup.parse content)).run
        ⟨[(name, content)]⟩ = .ok (page, sources)) := by
  have hstart : fs.Holds ⟨[(name, content)]⟩ := by simpa [FileSystem.Holds] using hread
  have hseen : [name] ⊆ (⟨[(name, content)]⟩ : Page.Sources).names := by simp [Page.Sources.names]
  obtain ⟨hheld, hpre, hagain⟩ :=
    Page.expand_repeats fs fs' name _ _ _ page sources hstart hseen h
  exact ⟨hheld, hpre.subset (by simp), hagain⟩

theorem read_again {fs : FileSystem} {name : Text} {doc : Document} (h : read fs name = .ok doc) :
    (∀ p ∈ doc.files, ∃ content, fs.read p = .ok content) ∧
      ∀ fs' : FileSystem, (∀ p ∈ doc.files, fs'.read p = fs.read p) → read fs' name = .ok doc := by
  obtain ⟨content, page, sources, hread, hexpand, hpage⟩ := read_eq_ok_iff.mp h
  rw [files_of_ofPage hpage]
  refine ⟨fun p hp => ?_, fun fs' hsame => ?_⟩
  · obtain ⟨entry, hentry, rfl⟩ := List.mem_map.mp hp
    exact ⟨entry.2, (holds_of_expand hread hexpand fs).1 entry hentry⟩
  · obtain ⟨hheld, hmem, hagain⟩ := holds_of_expand hread hexpand fs'
    have hheld' : fs'.Holds sources := fun entry hentry =>
      (hsame entry.1 (List.mem_map_of_mem hentry)).trans (hheld entry hentry)
    exact read_eq_ok_iff.mpr ⟨content, page, sources, hheld' _ hmem, hagain hheld', hpage⟩

theorem name_mem_files {fs : FileSystem} {name : Text} {doc : Document}
    (h : read fs name = .ok doc) : name ∈ doc.files := by
  obtain ⟨content, page, sources, hread, hexpand, hpage⟩ := read_eq_ok_iff.mp h
  rw [files_of_ofPage hpage]
  exact List.mem_map_of_mem (holds_of_expand hread hexpand fs).2.1

end Document

end Stencil
