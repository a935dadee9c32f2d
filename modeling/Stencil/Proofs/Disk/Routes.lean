import Stencil.Proofs.Disk.Changing

/-!
Clean paths by their parts: steps up, and then names.
-/

namespace Stencil

open Ascii Text

namespace Path

def ofParts (rooted : Bool) (parts : List Text) : Text :=
  if rooted then slash :: joinWith [slash] parts
  else if (joinWith [slash] parts).isEmpty then [dot]
  else joinWith [slash] parts

variable {rooted : Bool} {parts : List Text} {name : Text}

theorem joinWith_ne_nil_of_mem (hparts : ∀ part ∈ parts, part ≠ [] ∧ slash ∉ part)
    (hne : parts ≠ []) : joinWith [slash] parts ≠ [] := by
  obtain ⟨first, rest, rfl⟩ := List.exists_cons_of_ne_nil hne
  obtain ⟨c, text, rfl⟩ := List.exists_cons_of_ne_nil (hparts first (by simp)).1
  cases rest <;> simp [joinWith]

theorem ofParts_concat (hparts : ∀ part ∈ parts, part ≠ [] ∧ slash ∉ part) (hne : parts ≠ [])
    (name : Text) : ofParts rooted (parts ++ [name]) = ofParts rooted parts ++ slash :: name := by
  have hbody := joinWith_ne_nil_of_mem hparts hne
  have hconcat := joinWith_concat [slash] name hne
  rw [ofParts, ofParts, hconcat]
  cases rooted <;> simp [hbody]

theorem ofParts_ne_nil (rooted : Bool) (parts : List Text) : ofParts rooted parts ≠ [] := by
  unfold ofParts
  split
  · simp
  · split
    · simp
    next hne => simpa using hne

theorem ofParts_singleton (hname : name ≠ []) :
    ofParts rooted [name] = (if rooted then [slash] else []) ++ name := by
  cases rooted <;> simp [ofParts, joinWith, hname]

theorem nul_not_mem_ofParts (h : ∀ part ∈ parts, nul ∉ part) : nul ∉ ofParts rooted parts := by
  have hbody : nul ∉ joinWith [slash] parts := by
    intro hmem
    obtain hsep | ⟨part, hpart, hin⟩ := mem_joinWith hmem
    · exact absurd hsep (by decide)
    · exact h part hpart hin
  unfold ofParts
  split
  · rw [List.mem_cons, not_or]
    exact ⟨by decide, hbody⟩
  · split
    · decide
    · exact hbody

end Path

namespace Disk

variable {d d' : Disk} {cwd start here loc : Location} {rooted : Bool} {parts ns : List Text}
  {name : Text}

theorem dropEndWhile_ofParts (hparts : ∀ part ∈ parts ++ [name], part ≠ [] ∧ slash ∉ part) :
    dropEndWhile (· = slash) (Path.ofParts rooted (parts ++ [name])) =
      Path.ofParts rooted (parts ++ [name]) := by
  obtain ⟨hname, hslash⟩ := hparts name (by simp)
  by_cases hne : parts = []
  · rw [hne, List.nil_append, Path.ofParts_singleton hname]
    exact Path.dropEndWhile_of_not_mem hslash hname _
  · rw [Path.ofParts_concat (fun part hpart => hparts part (by simp [hpart])) hne,
      List.append_cons]
    exact Path.dropEndWhile_of_not_mem hslash hname _

theorem parentPath?_ofParts (hparts : ∀ part ∈ parts ++ [name], part ≠ [] ∧ slash ∉ part) :
    parentPath? (Path.ofParts rooted (parts ++ [name])) =
      if parts = [] then none else some (Path.ofParts rooted parts) := by
  obtain ⟨hname, hslash⟩ := hparts name (by simp)
  have habove (above : Text)
      (hsplit : Path.split (Path.ofParts rooted (parts ++ [name])) = (above, name)) :
      parentPath? (Path.ofParts rooted (parts ++ [name])) =
        if above.length ≤ 1 then none else some above.dropLast := by
    rw [parentPath?, dropEndWhile_ofParts hparts, hsplit]
  by_cases hne : parts = []
  · rw [if_pos hne]
    have htext := @Path.ofParts_singleton rooted name hname
    rw [hne, List.nil_append] at habove ⊢
    rw [htext] at habove ⊢
    cases rooted with
    | true => exact habove [slash] (Path.split_slash hslash [])
    | false => exact habove [] (Path.split_of_not_mem hslash)
  · have hrest : ∀ part ∈ parts, part ≠ [] ∧ slash ∉ part :=
      fun part hpart => hparts part (by simp [hpart])
    have hlong : ¬ (Path.ofParts rooted parts ++ [slash]).length ≤ 1 := by
      have hpos := List.length_pos_iff.mpr (Path.ofParts_ne_nil rooted parts)
      rw [List.length_append, List.length_singleton]
      omega
    have hsplit : Path.split (Path.ofParts rooted (parts ++ [name])) =
        (Path.ofParts rooted parts ++ [slash], name) := by
      rw [Path.ofParts_concat hrest hne, Path.split_slash hslash]
    rw [habove _ hsplit, if_neg hlong, if_neg hne, List.dropLast_concat]

def top (rooted : Bool) (cwd : Location) : Location :=
  if rooted then [] else cwd

theorem resolve_ofParts (htop : d.find? (top rooted cwd) = some .directory)
    (hparts : ∀ part ∈ parts, part ≠ [] ∧ slash ∉ part) (hnul : nul ∉ Path.ofParts rooted parts) :
    d.resolve cwd (Path.ofParts rooted parts) = d.walk (top rooted cwd) parts := by
  have hcontains : (Path.ofParts rooted parts).contains nul = false := by simpa using hnul
  have hslashes : ∀ part ∈ parts, slash ∉ part := fun part hpart => (hparts part hpart).2
  have hnil : (Path.ofParts rooted parts).isEmpty = false := by
    simpa using Path.ofParts_ne_nil rooted parts
  rw [resolve, hcontains, hnil, if_neg (by simp), if_neg (by simp)]
  by_cases hne : parts = []
  · subst hne
    cases rooted with
    | true => rfl
    | false => exact walk_here htop rfl []
  · have hbody := Path.joinWith_ne_nil_of_mem hparts hne
    have hsplit := splitOn_joinWith hne hslashes
    cases rooted with
    | true =>
      have hrooted : Path.isRooted (Path.ofParts true parts) = true := by
        simp [Path.isRooted, Path.ofParts]
      rw [if_pos hrooted]
      change d.walk [] (splitOn slash (slash :: joinWith [slash] parts)) = _
      rw [splitOn_sep_cons, walk_skip, hsplit]
      rfl
    | false =>
      have htext : Path.ofParts false parts = joinWith [slash] parts := by
        simp [Path.ofParts, hbody]
      have hrooted : Path.isRooted (joinWith [slash] parts) = false := by
        obtain ⟨first, rest, rfl⟩ := List.exists_cons_of_ne_nil hne
        obtain ⟨hfirst, hslash⟩ := hparts first (by simp)
        exact Path.isRooted_joinWith hfirst hslash rest
      rw [htext, hrooted, if_neg (by simp), hsplit]
      rfl

def route (rooted : Bool) (ups : Nat) (ns : List Text) : Text :=
  Path.ofParts rooted (List.replicate ups [dot, dot] ++ ns)

theorem nul_not_mem_route {ups : Nat} (h : ∀ name ∈ ns, nul ∉ name) :
    nul ∉ route rooted ups ns := by
  apply Path.nul_not_mem_ofParts
  intro part hpart
  rcases List.mem_append.mp hpart with hup | hname
  · rw [List.eq_of_mem_replicate hup]
    decide
  · exact h part hname

structure Base (d : Disk) (rooted : Bool) (cwd : Location) (ups : Nat) (start : Location) :
    Prop where
  top : d.find? (top rooted cwd) = some .directory
  walk : d.walk (Disk.top rooted cwd) (List.replicate ups [dot, dot]) = .ok start
  directory : d.find? start = some .directory

def Names (ns : List Text) : Prop :=
  ∀ name ∈ ns, Path.isValidPart name = true ∧ slash ∉ name

theorem Names.named (hns : Names ns) (ups : Nat) :
    ∀ part ∈ List.replicate ups [dot, dot] ++ ns, part ≠ [] ∧ slash ∉ part := by
  intro part hpart
  rcases List.mem_append.mp hpart with hup | hname
  · rw [List.eq_of_mem_replicate hup]
    decide
  · obtain ⟨hvalid, hslash⟩ := hns part hname
    exact ⟨(Path.isValidPart_iff.mp hvalid).1, hslash⟩

namespace Base

variable {ups : Nat}

theorem within (h : Base d rooted cwd ups start) (hwithin : d.Within d') :
    Base d' rooted cwd ups start :=
  ⟨hwithin _ h.top, hwithin.walk h.walk, hwithin _ h.directory⟩

theorem resolve (h : Base d rooted cwd ups start) (hns : Names ns)
    (hnul : nul ∉ route rooted ups ns) :
    d.resolve cwd (route rooted ups ns) = d.walk start ns := by
  rw [route, resolve_ofParts h.top (hns.named ups) hnul, walk_append, h.walk]
  rfl

theorem resolve_of_there (h : Base d rooted cwd ups start) (hd : d.Sound) (hns : Names ns)
    (hthere : (d.find? (start ++ ns)).isSome = true) :
    d.resolve cwd (route rooted ups ns) = .ok (start ++ ns) := by
  have hleads := hd (start ++ ns) hthere
  have hnul : nul ∉ route rooted ups ns :=
    nul_not_mem_route fun part hpart => (hleads.proper part (List.mem_append_right _ hpart)).2.2
  have hwhole := hleads.walk_append []
  rw [List.append_nil] at hwhole
  rw [h.resolve hns hnul, ← hleads.of_append.walk_append ns, hwhole]
  rfl

theorem entryAt_eq_ok_iff (h : Base d rooted cwd ups start) (hd : d.Sound) (hns : Names ns)
    {e : Entry} :
    d.entryAt cwd (route rooted ups ns) = .ok e ↔ d.find? (start ++ ns) = some e := by
  rw [Disk.entryAt_eq_ok_iff]
  constructor
  · rintro ⟨loc, hresolve, hfind⟩
    have hnul := (resolve_eq_ok_iff.mp hresolve).1
    rw [h.resolve hns hnul] at hresolve
    have hvalid : ns.all Path.isValidPart = true :=
      List.all_eq_true.mpr fun name hname => (hns name hname).1
    rwa [eq_append_of_walk hvalid hresolve] at hfind
  · intro hfind
    exact ⟨start ++ ns, h.resolve_of_there hd hns (by rw [hfind]; rfl), hfind⟩

theorem contentOf_eq_ok_iff (h : Base d rooted cwd ups start) (hd : d.Sound) (hns : Names ns)
    {content : Text} :
    d.contentOf cwd (route rooted ups ns) = .ok content ↔
      d.find? (start ++ ns) = some (.file content) := by
  rw [← h.entryAt_eq_ok_iff hd hns, contentOf]
  cases d.entryAt cwd (route rooted ups ns) with
  | error f => simp
  | ok e => cases e <;> simp

theorem resolve_concat (h : Base d rooted cwd ups start) (hd : d.Sound)
    (hns : Names (ns ++ [name])) (hdir : d.find? (start ++ ns) = some .directory) :
    d.resolve cwd (route rooted ups (ns ++ [name])) =
      if nul ∈ route rooted ups (ns ++ [name]) then .error .invalid
      else if 255 < name.length then .error .nameTooLong
      else .ok (start ++ (ns ++ [name])) := by
  split
  next hnul => simp [Disk.resolve, hnul]
  next hnul =>
    obtain ⟨hvalid, -⟩ := hns name (by simp)
    obtain ⟨hne, hdot, hdots⟩ := Path.isValidPart_iff.mp hvalid
    have hleads := hd (start ++ ns) (by rw [hdir]; rfl)
    rw [h.resolve hns hnul, ← hleads.of_append.walk_append, ← List.append_assoc,
      hleads.walk_append]
    simp [Disk.walk, hdir, hne, hdot, hdots]

end Base

def Shape (rooted : Bool) (parts : List Text) : Prop :=
  ∃ ups ns, parts = List.replicate ups [dot, dot] ++ ns ∧ Names ns ∧ (rooted = true → ups = 0)

theorem Shape.concat (h : Shape rooted parts) (hvalid : Path.isValidPart name = true)
    (hslash : slash ∉ name) : Shape rooted (parts ++ [name]) := by
  obtain ⟨ups, ns, rfl, hns, hrooted⟩ := h
  refine ⟨ups, ns ++ [name], List.append_assoc .., ?_, hrooted⟩
  intro part hpart
  rcases List.mem_append.mp hpart with hpart | hpart
  · exact hns part hpart
  · rw [List.mem_singleton.mp hpart]
    exact ⟨hvalid, hslash⟩

theorem shape_push {kept : List Text} {part : Text} (h : Shape rooted kept.reverse)
    (hslash : slash ∉ part) : Shape rooted (Path.push rooted kept part).reverse := by
  by_cases hskip : (part.isEmpty || part = [dot]) = true
  · rwa [Path.push_of_skip hskip]
  by_cases hup : part = [dot, dot]
  · subst hup
    cases kept with
    | nil =>
      cases rooted with
      | true => exact h
      | false => exact ⟨1, [], rfl, List.forall_mem_nil _, by simp⟩
    | cons last kept =>
      obtain ⟨ups, ns, hparts, hns, hrooted⟩ := h
      rw [List.reverse_cons] at hparts
      obtain rfl | ⟨ns, name, rfl⟩ := List.eq_nil_or_concat ns
      · -- the last part goes up, and so does one more
        have hlast : last = [dot, dot] := by
          apply List.eq_of_mem_replicate (n := ups)
          rw [List.append_nil] at hparts
          rw [← hparts]
          simp
        have hpush : Path.push rooted (last :: kept) [dot, dot] = [dot, dot] :: last :: kept := by
          simp [Path.push, hlast]
        refine ⟨ups + 1, [], ?_, hns, fun hr => ?_⟩
        · rw [hpush, List.reverse_cons, List.reverse_cons, hparts, List.append_nil,
            List.append_nil, List.replicate_succ']
        · have hups := hrooted hr
          rw [hups] at hparts
          simp at hparts
      · rw [List.concat_eq_append, ← List.append_assoc] at hparts
        obtain ⟨hkept, hlast⟩ := List.append_inj' hparts rfl
        obtain ⟨hvalid, -⟩ := hns name (by simp)
        have hne : last ≠ [dot, dot] := by
          rw [List.singleton_inj.mp hlast]
          exact (Path.isValidPart_iff.mp hvalid).2.2
        have hpush : Path.push rooted (last :: kept) [dot, dot] = kept := by
          simp [Path.push, hne]
        rw [hpush]
        exact ⟨ups, ns, hkept, fun part hpart => hns part (by simp [hpart]), hrooted⟩
  · simp only [Bool.or_eq_true, List.isEmpty_iff, decide_eq_true_eq, not_or] at hskip
    have hvalid := Path.isValidPart_iff.mpr ⟨hskip.1, hskip.2, hup⟩
    rw [Path.push_of_valid hvalid, List.reverse_cons]
    exact h.concat hvalid hslash

theorem shape_foldl_push {kept : List Text} (h : Shape rooted kept.reverse)
    (hparts : ∀ part ∈ parts, slash ∉ part) :
    Shape rooted (parts.foldl (Path.push rooted) kept).reverse := by
  induction parts generalizing kept with
  | nil => exact h
  | cons part parts ih =>
    obtain ⟨hpart, hrest⟩ := List.forall_mem_cons.mp hparts
    exact ih (shape_push h hpart) hrest

def keptParts (p : Text) : List Text :=
  ((splitOn slash p).foldl (Path.push (Path.isRooted p)) []).reverse

theorem shape_keptParts (p : Text) : Shape (Path.isRooted p) (keptParts p) :=
  shape_foldl_push ⟨0, [], rfl, List.forall_mem_nil _, fun _ => rfl⟩
    fun _ hpart => not_mem_of_mem_splitOn hpart

theorem clean_append {p : Text} (hp : p ≠ []) (hns : Names ns) (hne : ns ≠ []) :
    Path.clean (p ++ slash :: joinWith [slash] ns) =
      Path.ofParts (Path.isRooted p) (keptParts p ++ ns) := by
  have hslashes : ∀ part ∈ ns, slash ∉ part := fun part hpart => (hns part hpart).2
  have hvalid : ∀ part ∈ ns, Path.isValidPart part = true := fun part hpart => (hns part hpart).1
  have hparts : keptParts (p ++ slash :: joinWith [slash] ns) = keptParts p ++ ns := by
    rw [keptParts, Path.isRooted_append hp, splitOn_append, List.foldl_append,
      splitOn_joinWith hne hslashes, Path.foldl_push_of_valid hvalid, List.reverse_append,
      List.reverse_reverse]
    rfl
  rw [← hparts, ← Path.isRooted_append hp (slash :: joinWith [slash] ns)]
  rfl

theorem clean_append_dot {p : Text} (hp : p ≠ []) :
    Path.clean (p ++ slash :: [dot]) = Path.ofParts (Path.isRooted p) (keptParts p) := by
  have hdot : splitOn slash [dot] = [[dot]] := rfl
  have hparts : keptParts (p ++ slash :: [dot]) = keptParts p := by
    rw [keptParts, Path.isRooted_append hp, splitOn_append, hdot, List.foldl_append,
      List.foldl_cons, List.foldl_nil, Path.push_of_skip (by decide)]
    rfl
  rw [← hparts, ← Path.isRooted_append hp (slash :: [dot])]
  rfl

theorem foldl_push_ups (n m : Nat) :
    (List.replicate n [dot, dot]).foldl (Path.push false) (List.replicate m [dot, dot]) =
      List.replicate (n + m) [dot, dot] := by
  induction n generalizing m with
  | zero => simp
  | succ n ih =>
    have hpush : Path.push false (List.replicate m [dot, dot]) [dot, dot] =
        List.replicate (m + 1) [dot, dot] := by
      cases m <;> rfl
    rw [List.replicate_succ, List.foldl_cons, hpush, ih]
    congr 1
    omega

theorem foldl_push_shape {ups : Nat} (hns : Names ns) (hrooted : rooted = true → ups = 0) :
    (List.replicate ups [dot, dot] ++ ns).foldl (Path.push rooted) [] =
      (List.replicate ups [dot, dot] ++ ns).reverse := by
  have hvalid : ∀ part ∈ ns, Path.isValidPart part = true := fun part hpart => (hns part hpart).1
  have hups : (List.replicate ups [dot, dot]).foldl (Path.push rooted) [] =
      List.replicate ups [dot, dot] := by
    cases rooted with
    | true => rw [hrooted rfl]; rfl
    | false => exact foldl_push_ups ups 0
  rw [List.foldl_append, hups, Path.foldl_push_of_valid hvalid, List.reverse_append,
    List.reverse_replicate]

theorem keptParts_route {ups : Nat} (hns : Names ns) (hrooted : rooted = true → ups = 0) :
    Path.isRooted (route rooted ups ns) = rooted ∧
      keptParts (route rooted ups ns) = List.replicate ups [dot, dot] ++ ns := by
  have hparts := hns.named ups
  have hfold := foldl_push_shape hns hrooted
  unfold route keptParts
  generalize List.replicate ups [dot, dot] ++ ns = parts at hparts hfold
  by_cases hne : parts = []
  · subst hne
    cases rooted <;> exact ⟨rfl, rfl⟩
  · have hbody := Path.joinWith_ne_nil_of_mem hparts hne
    have hsplit := splitOn_joinWith hne fun part hpart => (hparts part hpart).2
    cases rooted with
    | true =>
      have htext : Path.ofParts true parts = slash :: joinWith [slash] parts := rfl
      have hr : Path.isRooted (slash :: joinWith [slash] parts) = true := by simp [Path.isRooted]
      rw [htext, hr, splitOn_sep_cons, hsplit, List.foldl_cons, Path.push_of_skip rfl, hfold,
        List.reverse_reverse]
      exact ⟨rfl, rfl⟩
    | false =>
      have htext : Path.ofParts false parts = joinWith [slash] parts := by
        simp [Path.ofParts, hbody]
      have hr : Path.isRooted (joinWith [slash] parts) = false := by
        obtain ⟨first, rest, rfl⟩ := List.exists_cons_of_ne_nil hne
        obtain ⟨hfirst, hslash⟩ := hparts first (by simp)
        exact Path.isRooted_joinWith hfirst hslash rest
      rw [htext, hr, hsplit, hfold, List.reverse_reverse]
      exact ⟨rfl, rfl⟩

theorem join_route {ups : Nat} (hns : Names (ns ++ [name])) (hrooted : rooted = true → ups = 0) :
    Path.join [route rooted ups ns, name] = route rooted ups (ns ++ [name]) := by
  have hrest : Names ns := fun part hpart => hns part (by simp [hpart])
  obtain ⟨hvalid, hslash⟩ := hns name (by simp)
  have hp : route rooted ups ns ≠ [] := Path.ofParts_ne_nil _ _
  have hname := (Path.isValidPart_iff.mp hvalid).1
  have hjoin : Path.join [route rooted ups ns, name] =
      Path.clean (route rooted ups ns ++ slash :: joinWith [slash] [name]) := by
    simp [Path.join, hp, hname, joinWith]
  have hsingle : Names [name] := List.forall_mem_singleton.mpr ⟨hvalid, hslash⟩
  obtain ⟨hr, hkept⟩ := keptParts_route hrest hrooted
  rw [hjoin, clean_append hp hsingle (by simp), hr, hkept, List.append_assoc]
  rfl

theorem walk_ups (hd : d.Sound) (hdir : d.find? here = some .directory) (ups : Nat) :
    ∃ start, d.walk here (List.replicate ups [dot, dot]) = .ok start ∧
      d.find? start = some .directory := by
  induction ups generalizing here with
  | zero => exact ⟨here, rfl, hdir⟩
  | succ ups ih =>
    rw [List.replicate_succ, walk_up hdir]
    exact ih (hd.directory_above hdir)

theorem exists_base (hd : d.Sound) (hcwd : d.find? cwd = some .directory) (rooted : Bool)
    (ups : Nat) : ∃ start, Base d rooted cwd ups start := by
  have htop : d.find? (top rooted cwd) = some .directory := by
    cases rooted with
    | true => rfl
    | false => exact hcwd
  obtain ⟨start, hwalk, hdir⟩ := walk_ups hd htop ups
  exact ⟨start, htop, hwalk, hdir⟩

theorem ofParts_injective {parts' : List Text}
    (hparts : ∀ part ∈ parts, part ≠ [] ∧ slash ∉ part)
    (hparts' : ∀ part ∈ parts', part ≠ [] ∧ slash ∉ part) (hne : parts ≠ []) (hne' : parts' ≠ [])
    (h : Path.ofParts rooted parts = Path.ofParts rooted parts') : parts = parts' := by
  have hbody := Path.joinWith_ne_nil_of_mem hparts hne
  have hbody' := Path.joinWith_ne_nil_of_mem hparts' hne'
  have hjoin : joinWith [slash] parts = joinWith [slash] parts' := by
    cases rooted <;> simpa [Path.ofParts, hbody, hbody'] using h
  exact joinWith_injective hne hne' (fun part hpart => (hparts part hpart).2)
    (fun part hpart => (hparts' part hpart).2) hjoin

end Disk

end Stencil
