import Mathlib.Data.List.Basic
import Stencil.Disk.Directory
import Stencil.Proofs.Text.Split

namespace Stencil

open Ascii Text

def Location.Proper (loc : Location) : Prop :=
  ∀ name ∈ loc, Path.isValidPart name = true ∧ slash ∉ name ∧ nul ∉ name

theorem Location.Proper.parts {loc : Location} (h : loc.Proper) :
    ∀ part ∈ loc, Path.isValidPart part = true ∧ slash ∉ part :=
  fun part hpart => ⟨(h part hpart).1, (h part hpart).2.1⟩

namespace Path

theorem isValidPart_iff {part : Text} :
    isValidPart part = true ↔ part ≠ [] ∧ part ≠ [dot] ∧ part ≠ [dot, dot] := by
  simp [isValidPart, and_assoc]

theorem push_of_valid {part : Text} (h : isValidPart part = true) (rooted : Bool)
    (kept : List Text) : push rooted kept part = part :: kept := by
  obtain ⟨hne, hdot, hdots⟩ := isValidPart_iff.mp h
  simp [push, hne, hdot, hdots]

theorem push_of_skip {part : Text} (h : (part.isEmpty || part = [dot]) = true) (rooted : Bool)
    (kept : List Text) : push rooted kept part = kept :=
  if_pos h

theorem push_up {kept : List Text} (h : [dot, dot] ∉ kept) :
    push true kept [dot, dot] = kept.tail := by
  cases kept with
  | nil => rfl
  | cons last kept =>
    rw [List.mem_cons, not_or] at h
    exact if_neg (Ne.symm h.1)

theorem foldl_push_of_valid {parts : List Text} (h : ∀ part ∈ parts, isValidPart part = true)
    (rooted : Bool) (kept : List Text) :
    parts.foldl (push rooted) kept = parts.reverse ++ kept := by
  induction parts generalizing kept with
  | nil => rfl
  | cons part parts ih =>
    obtain ⟨hpart, hparts⟩ := List.forall_mem_cons.mp h
    rw [List.foldl_cons, push_of_valid hpart, ih hparts, List.reverse_cons, List.append_assoc]
    rfl

structure Plain (p : Text) : Prop where
  text : isValidUtf8 p = true
  parts : ∀ part ∈ splitOn slash p, isValidPart part = true
  whole : nul ∉ p

theorem Plain.isValid {p : Text} (h : Plain p) : Path.isValid p = true := by
  have hparts : (splitOn slash p).all isValidPart = true := List.all_eq_true.mpr h.parts
  simp [Path.isValid, h.text, hparts]

end Path

namespace Location

theorem splitOn_path {loc : Location} (h : loc.Proper) :
    splitOn slash loc.path = [] :: if loc = [] then [[]] else loc := by
  rw [path, splitOn_sep_cons]
  split
  next heq => rw [heq]; rfl
  next hne => rw [splitOn_joinWith hne fun name hname => (h name hname).2.1]

theorem foldl_push_path {loc : Location} (h : loc.Proper) :
    (splitOn slash loc.path).foldl (Path.push true) [] = loc.reverse := by
  rw [splitOn_path h, List.foldl_cons]
  split
  next heq => rw [heq]; rfl
  · rw [Path.foldl_push_of_valid fun name hname => (h name hname).1]
    exact List.append_nil _

theorem clean_path_append {loc : Location} (h : loc.Proper) (p : Text) :
    Path.clean (loc.path ++ slash :: p) =
      path ((splitOn slash p).foldl (Path.push true) loc.reverse).reverse := by
  have hrooted : Path.isRooted (loc.path ++ slash :: p) = true := by
    simp [Path.isRooted, path]
  rw [Path.clean, hrooted, splitOn_append, List.foldl_append, foldl_push_path h]
  rfl

theorem clean_path {loc : Location} (h : loc.Proper) : Path.clean loc.path = loc.path := by
  have hrooted : Path.isRooted loc.path = true := by simp [Path.isRooted, path]
  rw [Path.clean, hrooted, foldl_push_path h, List.reverse_reverse]
  rfl

theorem absolute_path {loc : Location} (h : loc.Proper) (cwd : Text) :
    Path.absolute cwd loc.path = loc.path := by
  rw [Path.absolute, if_pos (by simp [Path.isRooted, path]), clean_path h]

theorem join_path {loc : Location} (h : loc.Proper) {p : Text}
    (hp : ∀ part ∈ splitOn slash p, Path.isValidPart part = true) :
    Path.join [loc.path, p] = path (loc ++ splitOn slash p) := by
  have hne : p ≠ [] := by
    rintro rfl
    exact absurd (hp [] (by simp [splitOn])) (by simp [Path.isValidPart])
  have hjoin : Path.join [loc.path, p] = Path.clean (loc.path ++ slash :: p) := by
    simp [Path.join, path, hne, joinWith]
  rw [hjoin, clean_path_append h, Path.foldl_push_of_valid hp, List.reverse_append,
    List.reverse_reverse, List.reverse_reverse]

theorem path_injective {loc loc' : Location} (h : loc.Proper) (h' : loc'.Proper)
    (heq : loc.path = loc'.path) : loc = loc' := by
  have hfold := foldl_push_path h
  rw [heq, foldl_push_path h'] at hfold
  exact List.reverse_injective hfold.symm

theorem not_mem_path {loc : Location} (h : loc.Proper) : nul ∉ loc.path := by
  rw [path, List.mem_cons, not_or]
  refine ⟨by decide, fun hmem => ?_⟩
  obtain hslash | ⟨name, hname, hnul⟩ := mem_joinWith hmem
  · exact absurd hslash (by decide)
  · exact (h name hname).2.2 hnul

end Location

namespace Disk

structure Leads (d : Disk) (loc : Location) : Prop where
  proper : loc.Proper
  short : ∀ name ∈ loc, name.length ≤ 255
  above {upper rest : Location} : loc = upper ++ rest → rest ≠ [] →
    d.find? upper = some .directory

namespace Leads

variable {d : Disk} {loc : Location}

theorem root (d : Disk) : d.Leads [] :=
  ⟨fun _ h => (List.not_mem_nil h).elim, fun _ h => (List.not_mem_nil h).elim,
    fun h hrest => absurd (List.append_eq_nil_iff.mp h.symm).2 hrest⟩

theorem of_append {rest : Location} (h : d.Leads (loc ++ rest)) : d.Leads loc := by
  refine ⟨fun name hname => h.proper name (by simp [hname]),
    fun name hname => h.short name (by simp [hname]), fun {upper more} heq hmore => ?_⟩
  have hsplit : loc ++ rest = upper ++ (more ++ rest) := by rw [heq, List.append_assoc]
  exact h.above hsplit (by simp [hmore])

theorem dropLast (h : d.Leads loc) : d.Leads loc.dropLast := by
  cases hlast : loc.getLast? with
  | none =>
    cases List.getLast?_eq_none_iff.mp hlast
    exact h
  | some name =>
    have heq := List.dropLast_append_getLast? name hlast
    rw [← heq] at h
    exact h.of_append

theorem snoc (h : d.Leads loc) (hloc : d.find? loc = some .directory) {name : Text}
    (hname : Path.isValidPart name = true ∧ slash ∉ name ∧ nul ∉ name)
    (hshort : name.length ≤ 255) : d.Leads (loc ++ [name]) := by
  refine ⟨?_, ?_, fun {upper rest} heq hrest => ?_⟩
  · intro other hother
    rcases List.mem_append.mp hother with hother | hother
    · exact h.proper other hother
    · exact List.mem_singleton.mp hother ▸ hname
  · intro other hother
    rcases List.mem_append.mp hother with hother | hother
    · exact h.short other hother
    · exact List.mem_singleton.mp hother ▸ hshort
  · obtain rfl | ⟨before, last, rfl⟩ := List.eq_nil_or_concat rest
    · exact absurd rfl hrest
    · rw [List.concat_eq_append, ← List.append_assoc] at heq
      obtain ⟨hupper, -⟩ := List.append_inj' heq rfl
      by_cases hbefore : before = []
      · rw [hbefore, List.append_nil] at hupper
        exact hupper ▸ hloc
      · exact h.above hupper hbefore

theorem walk_append (h : d.Leads loc) (rest : List Text) :
    d.walk [] (loc ++ rest) = d.walk loc rest := by
  have hdown : ∀ (more upper : Location), loc = upper ++ more →
      d.walk upper (more ++ rest) = d.walk loc rest := by
    intro more
    induction more with
    | nil =>
      intro upper heq
      rw [heq, List.append_nil]
      rfl
    | cons name more ih =>
      intro upper heq
      have hmem : name ∈ loc := by simp [heq]
      obtain ⟨hne, hdot, hdots⟩ := Path.isValidPart_iff.mp (h.proper name hmem).1
      have hshort := h.short name hmem
      rw [List.cons_append, walk, h.above heq (by simp)]
      simp only [List.isEmpty_eq_false_iff.mpr hne, hdot, hdots, decide_false, Bool.or_false,
        Bool.false_eq_true, if_false, Nat.not_lt.mpr hshort]
      exact ih (upper ++ [name]) (by rw [heq, List.append_assoc]; rfl)
  exact hdown loc [] rfl

end Leads

theorem walk_leads {d : Disk} {here loc : Location} {parts : List Text} (hhere : d.Leads here)
    (hparts : ∀ part ∈ parts, slash ∉ part ∧ nul ∉ part) (h : d.walk here parts = .ok loc) :
    d.Leads loc ∧ parts.foldl (Path.push true) here.reverse = loc.reverse := by
  induction parts generalizing here with
  | nil =>
    cases h
    exact ⟨hhere, rfl⟩
  | cons part parts ih =>
    obtain ⟨hpart, hparts⟩ := List.forall_mem_cons.mp hparts
    rw [walk] at h
    split at h
    · cases h
    · cases h
    next hfind =>
      rw [List.foldl_cons]
      split at h
      next hskip =>
        rw [Path.push_of_skip hskip]
        exact ih hhere hparts h
      next hskip =>
        split at h
        next hup =>
          have hproper : [dot, dot] ∉ here.reverse := fun hmem =>
            absurd (hhere.proper _ (List.mem_reverse.mp hmem)).1 (by decide)
          rw [hup, Path.push_up hproper, List.tail_reverse]
          exact ih hhere.dropLast hparts h
        next hup =>
          split at h
          · cases h
          next hshort =>
            simp only [Bool.or_eq_true, List.isEmpty_iff, decide_eq_true_eq, not_or] at hskip
            have hvalid := Path.isValidPart_iff.mpr ⟨hskip.1, hskip.2, hup⟩
            have hrest := ih (hhere.snoc hfind ⟨hvalid, hpart⟩ (Nat.not_lt.mp hshort)) hparts h
            rw [Path.push_of_valid hvalid]
            rwa [List.reverse_append] at hrest

theorem walk_skip (d : Disk) (parts : List Text) : d.walk [] ([] :: parts) = d.walk [] parts := rfl

theorem resolve_path {loc : Location} (h : loc.Proper) (d : Disk) (cwd : Location) :
    d.resolve cwd loc.path = d.walk [] loc := by
  have hnul : loc.path.contains nul = false := by simpa using Location.not_mem_path h
  have hrooted : Path.isRooted loc.path = true := by simp [Path.isRooted, Location.path]
  rw [resolve, hnul, if_neg (by simp), if_neg (by simp [Location.path]), if_pos hrooted,
    Location.splitOn_path h, walk_skip]
  split
  next heq => rw [heq, walk_skip]
  · rfl

def Sound (d : Disk) : Prop :=
  ∀ loc, (d.find? loc).isSome → d.Leads loc

theorem directory_of_walk {d : Disk} {here loc : Location} {parts : List Text} (hparts : parts ≠ [])
    (h : d.walk here parts = .ok loc) : d.find? here = some .directory := by
  obtain ⟨part, rest, rfl⟩ := List.exists_cons_of_ne_nil hparts
  rw [walk] at h
  split at h
  · cases h
  · cases h
  next hfind => exact hfind

theorem absolute_of_resolve {d : Disk} {cwd loc : Location} {p : Text} (hd : d.Sound)
    (h : d.resolve cwd p = .ok loc) : Path.absolute cwd.path p = loc.path ∧ d.Leads loc := by
  unfold resolve at h
  split at h
  · cases h
  next hnul =>
    split at h
    · cases h
    next hne =>
      have hparts : ∀ part ∈ splitOn slash p, slash ∉ part ∧ nul ∉ part := by
        intro part hpart
        refine ⟨not_mem_of_mem_splitOn hpart, fun hmem => hnul ?_⟩
        simpa using mem_of_mem_splitOn hpart hmem
      split at h
      next hrooted =>
        obtain ⟨hloc, hfold⟩ := walk_leads (Leads.root d) hparts h
        refine ⟨?_, hloc⟩
        rw [Path.absolute, if_pos hrooted, Path.clean, if_pos hrooted, hrooted]
        have hparts := congrArg List.reverse hfold
        rw [List.reverse_reverse] at hparts
        exact congrArg (fun parts => slash :: joinWith [slash] parts) hparts
      next hrooted =>
        have hhere := directory_of_walk (splitOn_ne_nil slash p) h
        have hcwd : d.Leads cwd := hd cwd (by rw [hhere]; rfl)
        obtain ⟨hloc, hfold⟩ := walk_leads hcwd hparts h
        refine ⟨?_, hloc⟩
        have hjoin : Path.join [cwd.path, p] = Path.clean (cwd.path ++ slash :: p) := by
          rw [List.isEmpty_iff] at hne
          simp [Path.join, Location.path, hne, joinWith]
        rw [Path.absolute, if_neg hrooted, hjoin, Location.clean_path_append hcwd.proper, hfold,
          List.reverse_reverse]

theorem entryAt_of_resolve {d : Disk} {cwd loc : Location} {p : Text}
    (h : d.resolve cwd p = .ok loc) :
    d.entryAt cwd p = (d.find? loc).elim (.error .missing) .ok := by
  rw [entryAt, h]
  cases hfind : d.find? loc with
  | none =>
    simp only [bind, Except.bind, hfind]
    rfl
  | some e =>
    simp only [bind, Except.bind, hfind]
    rfl

section

variable {d : Disk} {loc : Location} {name : Text} (hname : Path.Plain name)

include hname

theorem proper_append (hloc : loc.Proper) : (loc ++ splitOn slash name : Location).Proper := by
  intro part hpart
  rcases List.mem_append.mp hpart with hpart | hpart
  · exact hloc part hpart
  · exact ⟨hname.parts part hpart, not_mem_of_mem_splitOn hpart,
      fun hmem => hname.whole (mem_of_mem_splitOn hpart hmem)⟩

theorem resolve_join (hloc : loc.Proper) (d : Disk) (cwd : Location) :
    d.resolve cwd (Path.join [loc.path, name]) = d.walk [] (loc ++ splitOn slash name) := by
  rw [Location.join_path hloc hname.parts, resolve_path (proper_append hname hloc)]

theorem contentOf_join (h : d.Leads loc) (cwd : Location) :
    (d.contentOf cwd (Path.join [loc.path, name])).mapError SystemError.fault =
      (d.readFrom loc name).mapError SystemError.fault := by
  have hresolve := resolve_join hname h.proper d cwd
  rw [h.walk_append] at hresolve
  cases hwalk : d.walk loc (splitOn slash name) with
  | error f =>
    rw [contentOf, entryAt, hresolve, readFrom, hwalk]
    rfl
  | ok place =>
    rw [hwalk] at hresolve
    rw [contentOf, entryAt_of_resolve hresolve, readFrom, hwalk]
    dsimp only
    cases d.find? place with
    | none => rfl
    | some e => cases e <;> rfl

theorem leads_of_contentOf_join (hloc : loc.Proper) {cwd : Location} {content : Text}
    (h : d.contentOf cwd (Path.join [loc.path, name]) = .ok content) : d.Leads loc := by
  rw [contentOf, entryAt, resolve_join hname hloc] at h
  cases hwalk : d.walk [] (loc ++ splitOn slash name) with
  | error f =>
    rw [hwalk] at h
    cases h
  | ok place =>
    have hproper := proper_append hname hloc
    obtain ⟨hplace, -⟩ := walk_leads (Leads.root d) (fun part hpart => (hproper part hpart).2) hwalk
    have hvalid : (loc ++ splitOn slash name).all Path.isValidPart = true :=
      List.all_eq_true.mpr fun part hpart => (hproper part hpart).1
    rw [eq_append_of_walk hvalid hwalk, List.nil_append] at hplace
    exact hplace.of_append

end

end Disk

end Stencil
