import Stencil.Proofs.Disk.Sound
import Stencil.Proofs.Path

namespace Stencil

open Ascii Text

namespace Disk

variable {d d' : Disk} {cwd here loc : Location}

theorem walk_append (d : Disk) (here : Location) (parts rest : List Text) :
    d.walk here (parts ++ rest) = d.walk here parts >>= fun loc => d.walk loc rest := by
  induction parts generalizing here with
  | nil => rfl
  | cons part parts ih =>
    rw [List.cons_append, walk, walk]
    cases d.find? here with
    | none => rfl
    | some e =>
      cases e with
      | file content => rfl
      | directory =>
        dsimp only
        simp only [ih]
        split
        · rfl
        · split
          · rfl
          · split <;> rfl

theorem walk_append_ok {parts rest : List Text} (h : d.walk here (parts ++ rest) = .ok loc) :
    ∃ mid, d.walk here parts = .ok mid ∧ d.walk mid rest = .ok loc := by
  rw [walk_append] at h
  exact bind_eq_ok_iff.mp h

theorem walk_here {part : Text} (h : d.find? here = some .directory)
    (hpart : (part.isEmpty || part = [dot]) = true) (rest : List Text) :
    d.walk here (part :: rest) = d.walk here rest := by
  rw [walk, h]
  exact if_pos hpart

theorem walk_up (h : d.find? here = some .directory) (rest : List Text) :
    d.walk here ([dot, dot] :: rest) = d.walk here.dropLast rest := by
  rw [walk, h]
  rfl

theorem walk_name {name : Text} (h : d.find? here = some .directory)
    (hname : Path.isValidPart name = true) (hshort : name.length ≤ 255) :
    d.walk here [name] = .ok (here ++ [name]) := by
  obtain ⟨hne, hdot, hdots⟩ := Path.isValidPart_iff.mp hname
  simp [walk, h, hne, hdot, hdots, Nat.not_lt.mpr hshort]

theorem walk_part {name : Text} (h : d.walk here [name] = .ok loc) :
    (name = [] ∨ name = [dot]) ∧ loc = here ∨ name = [dot, dot] ∧ loc = here.dropLast ∨
      Path.isValidPart name = true ∧ name.length ≤ 255 ∧ loc = here ++ [name] := by
  have hdir := directory_of_walk (by simp) h
  by_cases hskip : (name.isEmpty || name = [dot]) = true
  · rw [walk_here hdir hskip] at h
    cases h
    exact .inl ⟨by simpa using hskip, rfl⟩
  · by_cases hup : name = [dot, dot]
    · rw [hup, walk_up hdir] at h
      cases h
      exact .inr (.inl ⟨hup, rfl⟩)
    · rw [walk, hdir] at h
      dsimp only at h
      rw [if_neg hskip, if_neg hup] at h
      split at h
      · cases h
      next hshort =>
        cases h
        simp only [Bool.or_eq_true, List.isEmpty_iff, decide_eq_true_eq, not_or] at hskip
        exact .inr (.inr ⟨Path.isValidPart_iff.mpr ⟨hskip.1, hskip.2, hup⟩, Nat.not_lt.mp hshort,
          rfl⟩)

def Within (d d' : Disk) : Prop :=
  ∀ l, d.find? l = some .directory → d'.find? l = some .directory

theorem Within.walk (h : d.Within d') {parts : List Text} (hwalk : d.walk here parts = .ok loc) :
    d'.walk here parts = .ok loc := by
  induction parts generalizing here with
  | nil => exact hwalk
  | cons part parts ih =>
    have hdir := directory_of_walk (by simp) hwalk
    rw [Disk.walk, hdir] at hwalk
    rw [Disk.walk, h here hdir]
    dsimp only at hwalk ⊢
    split
    next hskip => exact ih (by rwa [if_pos hskip] at hwalk)
    next hskip =>
      rw [if_neg hskip] at hwalk
      split
      next hup => exact ih (by rwa [if_pos hup] at hwalk)
      next hup =>
        rw [if_neg hup] at hwalk
        split
        next hlong =>
          rw [if_pos hlong] at hwalk
          cases hwalk
        next hlong => exact ih (by rwa [if_neg hlong] at hwalk)

def start (cwd : Location) (p : Text) : Location :=
  if Path.isRooted p then [] else cwd

theorem resolve_eq_ok_iff {p : Text} :
    d.resolve cwd p = .ok loc ↔
      nul ∉ p ∧ p ≠ [] ∧ d.walk (start cwd p) (splitOn slash p) = .ok loc := by
  unfold resolve start
  by_cases hnul : nul ∈ p
  · simp [hnul]
  · by_cases hp : p = []
    · simp [hp]
    · simp [hnul, hp]

theorem Within.resolve (h : d.Within d') {p : Text} (hresolve : d.resolve cwd p = .ok loc) :
    d'.resolve cwd p = .ok loc := by
  obtain ⟨hnul, hne, hwalk⟩ := resolve_eq_ok_iff.mp hresolve
  exact resolve_eq_ok_iff.mpr ⟨hnul, hne, h.walk hwalk⟩

theorem walk_foldl_push (rooted : Bool) (hroot : rooted = true → here = [])
    {parts kept : List Text} {mid : Location} (hkept : ∀ part ∈ kept, part ≠ [] ∧ part ≠ [dot])
    (hmid : d.walk here kept.reverse = .ok mid) (h : d.walk mid parts = .ok loc) :
    d.walk here (parts.foldl (Path.push rooted) kept).reverse = .ok loc := by
  induction parts generalizing kept mid with
  | nil =>
    cases h
    exact hmid
  | cons part parts ih =>
    have hdir := directory_of_walk (by simp) h
    obtain ⟨next, hpart, hrest⟩ : ∃ next, d.walk mid [part] = .ok next ∧ d.walk next parts = .ok loc :=
      walk_append_ok h
    rw [List.foldl_cons]
    rcases walk_part hpart with ⟨hskip, rfl⟩ | ⟨rfl, rfl⟩ | ⟨hvalid, -, rfl⟩
    · rw [Path.push_of_skip (by simpa using hskip)]
      exact ih hkept hmid hrest
    · cases kept with
      | nil =>
        cases hmid
        cases rooted with
        | true =>
          cases hroot rfl
          exact ih hkept rfl hrest
        | false =>
          have hpush : Path.push false [] [dot, dot] = [[dot, dot]] := rfl
          rw [hpush]
          exact ih (by simp) hpart hrest
      | cons last kept =>
        by_cases hlast : last = [dot, dot]
        · have hpush : Path.push rooted (last :: kept) [dot, dot] = [dot, dot] :: last :: kept := by
            simp [Path.push, hlast]
          rw [hpush]
          refine ih (List.forall_mem_cons.mpr ⟨by simp, hkept⟩) ?_ hrest
          rw [List.reverse_cons, walk_append, hmid]
          exact walk_up hdir []
        · -- the part before was a name, and going up takes it back
          have hpush : Path.push rooted (last :: kept) [dot, dot] = kept := by
            simp [Path.push, hlast]
          rw [List.reverse_cons] at hmid
          obtain ⟨before, hbefore, hname⟩ := walk_append_ok hmid
          obtain ⟨hne, hdot⟩ := hkept last (by simp)
          have hmid' : mid.dropLast = before := by
            rcases walk_part hname with ⟨hskip, -⟩ | ⟨hup, -⟩ | ⟨-, -, rfl⟩
            · exact absurd hskip (by simp [hne, hdot])
            · exact absurd hup hlast
            · exact List.dropLast_concat
          rw [hpush]
          rw [hmid'] at hrest
          exact ih (fun part hpart => hkept part (List.mem_cons_of_mem _ hpart)) hbefore hrest
    · rw [Path.push_of_valid hvalid]
      obtain ⟨hne, hdot, -⟩ := Path.isValidPart_iff.mp hvalid
      refine ih (List.forall_mem_cons.mpr ⟨⟨hne, hdot⟩, hkept⟩) ?_ hrest
      rw [List.reverse_cons, walk_append, hmid]
      exact hpart

theorem walk_of_parts {parts : List Text} (hparts : ∀ part ∈ parts, slash ∉ part)
    (hdir : d.find? here = some .directory) (h : d.walk here parts = .ok loc) :
    d.walk here (splitOn slash (joinWith [slash] parts)) = .ok loc := by
  by_cases hne : parts = []
  · rw [hne] at h ⊢
    cases h
    exact walk_here hdir rfl []
  · rwa [splitOn_joinWith hne hparts]

theorem resolve_clean {p : Text} (h : d.resolve cwd p = .ok loc) :
    d.resolve cwd (Path.clean p) = .ok loc := by
  obtain ⟨hnul, hne, hwalk⟩ := resolve_eq_ok_iff.mp h
  have hdir := directory_of_walk (splitOn_ne_nil slash p) hwalk
  have hstart : Path.isRooted p = true → start cwd p = [] := fun hrooted => if_pos hrooted
  have hparts := walk_foldl_push _ hstart (List.forall_mem_nil _) rfl hwalk
  have hmem : ∀ part ∈ ((splitOn slash p).foldl (Path.push (Path.isRooted p)) []).reverse,
      part ≠ [] ∧ slash ∉ part ∧ nul ∉ part := by
    intro part hpart
    rcases Path.mem_foldl_push (List.mem_reverse.mp hpart) with hpart | ⟨hpart, hne, -⟩
    · cases hpart
    · exact ⟨hne, not_mem_of_mem_splitOn hpart, fun hmem => hnul (mem_of_mem_splitOn hpart hmem)⟩
  unfold Path.clean
  generalize ((splitOn slash p).foldl (Path.push (Path.isRooted p)) []).reverse = parts at *
  have hbody := walk_of_parts (fun part hpart => (hmem part hpart).2.1) hdir hparts
  have hfree : nul ∉ joinWith [slash] parts := by
    intro hmem'
    obtain hsep | ⟨part, hpart, hin⟩ := mem_joinWith hmem'
    · exact absurd hsep (by decide)
    · exact (hmem part hpart).2.2 hin
  dsimp only
  split
  next hrooted =>
    rw [hstart hrooted] at hbody
    refine resolve_eq_ok_iff.mpr ⟨?_, by simp, ?_⟩
    · rw [List.mem_cons, not_or]
      exact ⟨by decide, hfree⟩
    rw [start, if_pos (by simp [Path.isRooted]), splitOn_sep_cons, walk_skip]
    exact hbody
  next hrooted =>
    rw [start, if_neg hrooted] at hbody hdir
    split
    next hempty =>
      rw [List.isEmpty_iff.mp hempty] at hbody
      refine resolve_eq_ok_iff.mpr ⟨by decide, by simp, ?_⟩
      have hhere : d.walk cwd [[]] = d.walk cwd [] := walk_here hdir rfl []
      exact (walk_here hdir rfl []).trans (hhere.symm.trans hbody)
    next hempty =>
      have hhead : Path.isRooted (joinWith [slash] parts) = false := by
        cases parts with
        | nil => rfl
        | cons part parts => 
          obtain ⟨hpart, hslash, -⟩ := hmem part (by simp)
          exact Path.isRooted_joinWith hpart hslash parts
      refine resolve_eq_ok_iff.mpr ⟨hfree, by simpa using hempty, ?_⟩
      rw [start, if_neg (by simp [hhead])]
      exact hbody

theorem resolve_concat_slash {p : Text} (h : d.resolve cwd p = .ok here)
    (hdir : d.find? here = some .directory) : d.resolve cwd (p ++ [slash]) = .ok here := by
  obtain ⟨hnul, hne, hwalk⟩ := resolve_eq_ok_iff.mp h
  refine resolve_eq_ok_iff.mpr ⟨?_, by simp, ?_⟩
  · rw [List.mem_append, not_or]
    exact ⟨hnul, by decide⟩
  · rw [start, Path.isRooted_append hne, splitOn_append, walk_append]
    change d.walk (start cwd p) _ >>= _ = _
    rw [hwalk]
    exact walk_here hdir rfl []

theorem resolve_append_slashes {p : Text} (h : d.resolve cwd p = .ok here)
    (hdir : d.find? here = some .directory) (k : Nat) :
    d.resolve cwd (p ++ List.replicate k slash) = .ok here := by
  induction k with
  | zero => simpa using h
  | succ k ih =>
    rw [List.replicate_succ', ← List.append_assoc]
    exact resolve_concat_slash ih hdir

theorem resolve_slash_name {p name : Text} (h : d.resolve cwd (p ++ [slash]) = .ok here)
    (hslash : slash ∉ name) (hnul : nul ∉ name) :
    d.resolve cwd (p ++ slash :: name) = d.walk here [name] := by
  obtain ⟨hfree, -, hwalk⟩ := resolve_eq_ok_iff.mp h
  rw [splitOn_append] at hwalk
  obtain ⟨mid, hmid, hlast⟩ := walk_append_ok hwalk
  have hhere : mid = here := by
    rw [show splitOn slash [] = [[]] from rfl,
      walk_here (directory_of_walk (by simp) hlast) rfl] at hlast
    exact Except.ok.inj hlast
  have hwhole : p ++ slash :: name = (p ++ [slash]) ++ name := by simp
  have hfree' : (p ++ slash :: name).contains nul = false := by
    rw [List.contains_eq_mem, decide_eq_false_iff_not, hwhole, List.mem_append, not_or]
    exact ⟨hfree, hnul⟩
  rw [resolve, hfree', if_neg (by simp), if_neg (by simp), splitOn_append, walk_append,
    splitOn_of_not_mem hslash, hwhole, Path.isRooted_append (by simp)]
  change d.walk (start cwd (p ++ [slash])) _ >>= _ = _
  rw [hmid, hhere]
  rfl

theorem resolve_inside {p name : Text} (h : d.resolve cwd p = .ok here)
    (hdir : d.find? here = some .directory) (hslash : slash ∉ name) (hnul : nul ∉ name) :
    d.resolve cwd ((if endsWith p [slash] then p else p ++ [slash]) ++ name) =
      d.walk here [name] := by
  split
  next hends =>
    obtain ⟨q, rfl⟩ := endsWith_iff.mp hends
    simpa using resolve_slash_name h hslash hnul
  next => simpa using resolve_slash_name (resolve_concat_slash h hdir) hslash hnul

theorem resolve_join_name {p name : Text} (h : d.resolve cwd p = .ok here)
    (hdir : d.find? here = some .directory) (hslash : slash ∉ name) (hnul : nul ∉ name)
    (hname : d.walk here [name] = .ok loc) : d.resolve cwd (Path.join [p, name]) = .ok loc := by
  have hp : p ≠ [] := (resolve_eq_ok_iff.mp h).2.1
  by_cases hempty : name = []
  · rw [hempty, walk_here hdir rfl] at hname
    cases hname
    have hjoin : Path.join [p, name] = Path.clean p := by simp [Path.join, hp, hempty, joinWith]
    rw [hjoin]
    exact resolve_clean h
  · have hjoin : Path.join [p, name] = Path.clean (p ++ slash :: name) := by
      simp [Path.join, hp, hempty, joinWith]
    rw [hjoin]
    apply resolve_clean
    rw [resolve_slash_name (resolve_concat_slash h hdir) hslash hnul]
    exact hname

end Disk

end Stencil
