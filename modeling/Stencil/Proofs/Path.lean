import Stencil.Proofs.Disk.Leading

namespace Stencil.Path

open Ascii Text

theorem mem_push {rooted : Bool} {kept : List Text} {first part : Text}
    (h : part ∈ push rooted kept first) :
    part ∈ kept ∨ part = first ∧ part ≠ [] ∧ part ≠ [dot] := by
  unfold push at h
  split at h
  · exact .inl h
  next hskip =>
    simp only [Bool.or_eq_true, List.isEmpty_iff, decide_eq_true_eq, not_or] at hskip
    have hfirst (heq : part = first) : part = first ∧ part ≠ [] ∧ part ≠ [dot] :=
      ⟨heq, heq ▸ hskip⟩
    split at h
    · cases kept with
      | nil =>
        cases rooted with
        | true => cases h
        | false => exact .inr (hfirst (List.mem_singleton.mp h))
      | cons last rest =>
        dsimp only at h
        split at h
        · exact (List.mem_cons.mp h).symm.imp id hfirst
        · exact .inl (List.mem_cons_of_mem _ h)
    · exact (List.mem_cons.mp h).symm.imp id hfirst

theorem mem_foldl_push {rooted : Bool} {parts kept : List Text} {part : Text}
    (h : part ∈ parts.foldl (push rooted) kept) :
    part ∈ kept ∨ part ∈ parts ∧ part ≠ [] ∧ part ≠ [dot] := by
  induction parts generalizing kept with
  | nil => exact .inl h
  | cons first parts ih =>
    rcases ih h with hkept | ⟨hparts, hpart⟩
    · rcases mem_push hkept with hkept | ⟨rfl, hpart⟩
      · exact .inl hkept
      · exact .inr ⟨by simp, hpart⟩
    · exact .inr ⟨List.mem_cons_of_mem _ hparts, hpart⟩

theorem isRooted_joinWith {part : Text} (hne : part ≠ []) (h : slash ∉ part) (parts : List Text) :
    isRooted (joinWith [slash] (part :: parts)) = false := by
  obtain ⟨b, rest, rfl⟩ := List.exists_cons_of_ne_nil hne
  have hhead : (joinWith [slash] ((b :: rest) :: parts)).head? = some b := by
    cases parts <;> rfl
  rw [isRooted, hhead]
  rw [List.mem_cons, not_or] at h
  simpa [eq_comm] using h.1

theorem isRooted_append {p : Text} (hp : p ≠ []) (q : Text) :
    isRooted (p ++ q) = isRooted p := by
  obtain ⟨b, p, rfl⟩ := List.exists_cons_of_ne_nil hp
  rfl

theorem takeWhile_reverse {sep : UInt8} {name : Text} (h : sep ∉ name) (rest : Text) :
    (name.reverse ++ rest).takeWhile (· ≠ sep) = name.reverse ++ rest.takeWhile (· ≠ sep) := by
  apply List.takeWhile_append_of_pos
  intro c hc
  have hne : c ≠ sep := by
    rintro rfl
    exact h (List.mem_reverse.mp hc)
  simpa using hne

theorem split_of_not_mem {name : Text} (h : slash ∉ name) : split name = ([], name) := by
  have htake := takeWhile_reverse h []
  rw [List.append_nil, List.takeWhile_nil, List.append_nil] at htake
  rw [split, htake, List.reverse_reverse, Nat.sub_self]
  rfl

theorem split_slash {name : Text} (h : slash ∉ name) (p : Text) :
    split (p ++ slash :: name) = (p ++ [slash], name) := by
  have htake : (p ++ slash :: name).reverse.takeWhile (· ≠ slash) = name.reverse := by
    rw [List.reverse_append, List.reverse_cons, List.append_assoc, takeWhile_reverse h]
    simp
  have hwhole : p ++ slash :: name = (p ++ [slash]) ++ name := by simp
  have hlength : (p ++ slash :: name).length - name.length = (p ++ [slash]).length := by
    simp only [List.length_append, List.length_cons, List.length_nil]
    omega
  rw [split, htake, List.reverse_reverse, hlength, hwhole, List.take_left']
  rfl

theorem dropEndWhile_of_not_mem {name : Text} (h : slash ∉ name) (hne : name ≠ []) (p : Text) :
    dropEndWhile (· = slash) (p ++ name) = p ++ name := by
  obtain ⟨c, rest, hrest⟩ := List.exists_cons_of_ne_nil (mt List.reverse_eq_nil_iff.mp hne)
  have hc : c ≠ slash := by
    rintro rfl
    exact h (List.mem_reverse.mp (hrest ▸ List.mem_cons_self))
  have hkeep : (name.reverse ++ p.reverse).dropWhile (· = slash) = name.reverse ++ p.reverse := by
    rw [hrest, List.cons_append, List.dropWhile_cons_of_neg (by simpa using hc)]
  rw [dropEndWhile, List.reverse_append, hkeep, List.reverse_append, List.reverse_reverse,
    List.reverse_reverse]

theorem base_of_not_mem {name : Text} (h : slash ∉ name) (hne : name ≠ []) : base name = name := by
  have hends := dropEndWhile_of_not_mem h hne []
  rw [List.nil_append] at hends
  rw [base, if_neg (by simpa using hne), hends, split_of_not_mem h]
  exact if_neg (by simpa using hne)

theorem extension_append {x tail : Text} (hslash : slash ∉ x ++ dot :: tail) (hdot : dot ∉ tail) :
    extension (x ++ dot :: tail) = dot :: tail := by
  have htake : (x ++ dot :: tail).reverse.takeWhile (· ≠ dot) = tail.reverse := by
    rw [List.reverse_append, List.reverse_cons, List.append_assoc, takeWhile_reverse hdot]
    simp
  rw [extension, split_of_not_mem hslash]
  dsimp only
  rw [htake, List.reverse_reverse, if_pos]
  simp only [List.length_append, List.length_cons]
  omega

theorem clean_joinWith {parts : List Text} (hne : parts ≠ [])
    (h : ∀ part ∈ parts, isValidPart part = true ∧ slash ∉ part) :
    clean (joinWith [slash] parts) = joinWith [slash] parts := by
  obtain ⟨first, rest, rfl⟩ := List.exists_cons_of_ne_nil hne
  obtain ⟨hvalid, hslash⟩ := h first (by simp)
  have hrooted := isRooted_joinWith (isValidPart_iff.mp hvalid).1 hslash rest
  have hnil : joinWith [slash] (first :: rest) ≠ [] := by
    intro hnil
    have hsplit := splitOn_joinWith hne fun part hpart => (h part hpart).2
    rw [hnil, splitOn] at hsplit
    exact (isValidPart_iff.mp hvalid).1 (List.cons.inj hsplit).1.symm
  rw [clean, hrooted, splitOn_joinWith hne fun part hpart => (h part hpart).2,
    foldl_push_of_valid fun part hpart => (h part hpart).1]
  simp [hnil]

section

variable {dirs : List Text} {name : Text}
  (h : ∀ part ∈ dirs ++ [name], isValidPart part = true ∧ slash ∉ part)

include h

theorem joinWith_ne_nil (hdirs : dirs ≠ []) : joinWith [slash] dirs ≠ [] := by
  obtain ⟨first, rest, rfl⟩ := List.exists_cons_of_ne_nil hdirs
  obtain ⟨hne, -, -⟩ := isValidPart_iff.mp (h first (by simp)).1
  obtain ⟨c, text, rfl⟩ := List.exists_cons_of_ne_nil hne
  cases rest <;> simp [joinWith]

theorem split_joinWith :
    split (joinWith [slash] (dirs ++ [name])) =
      (if dirs = [] then [] else joinWith [slash] dirs ++ [slash], name) := by
  have hname := (h name (by simp)).2
  by_cases hdirs : dirs = []
  · simpa [hdirs, joinWith] using split_of_not_mem hname
  · rw [joinWith_concat _ _ hdirs, if_neg hdirs]
    simpa using split_slash hname (joinWith [slash] dirs)

theorem base_joinWith : base (joinWith [slash] (dirs ++ [name])) = name := by
  obtain ⟨hvalid, hslash⟩ := h name (by simp)
  obtain ⟨hne, -, -⟩ := isValidPart_iff.mp hvalid
  have hends : dropEndWhile (· = slash) (joinWith [slash] (dirs ++ [name])) =
      joinWith [slash] (dirs ++ [name]) := by
    by_cases hdirs : dirs = []
    · simpa [hdirs, joinWith] using dropEndWhile_of_not_mem hslash hne []
    · rw [joinWith_concat _ _ hdirs]
      exact dropEndWhile_of_not_mem hslash hne _
  have hnil : joinWith [slash] (dirs ++ [name]) ≠ [] := by
    intro hnil
    have hsplit := split_joinWith h
    rw [hnil] at hsplit
    exact hne (congrArg Prod.snd hsplit).symm
  rw [base, if_neg (by simpa using hnil), hends, split_joinWith h]
  exact if_neg (by simpa using hne)

theorem dir_joinWith :
    dir (joinWith [slash] (dirs ++ [name])) =
      if dirs = [] then [dot] else joinWith [slash] dirs := by
  rw [dir, split_joinWith h]
  by_cases hdirs : dirs = []
  · simp [hdirs, clean, splitOn, push, joinWith, isRooted]
  · have hrooted : isRooted (joinWith [slash] dirs ++ [slash]) = false := by
      rw [isRooted_append (joinWith_ne_nil h hdirs)]
      obtain ⟨first, rest, rfl⟩ := List.exists_cons_of_ne_nil hdirs
      obtain ⟨hvalid, hslash⟩ := h first (by simp)
      exact isRooted_joinWith (isValidPart_iff.mp hvalid).1 hslash rest
    have hsplit : splitOn slash (joinWith [slash] dirs ++ [slash]) = dirs ++ [[]] := by
      rw [splitOn_append, splitOn_joinWith hdirs fun part hpart => (h part (by simp [hpart])).2]
      rfl
    have hkept : (dirs ++ [[]]).foldl (push false) [] = dirs.reverse := by
      have hvalid : ∀ part ∈ dirs, isValidPart part = true := fun part hpart =>
        (h part (by simp [hpart])).1
      rw [List.foldl_append, foldl_push_of_valid hvalid]
      simp [push]
    rw [if_neg hdirs, if_neg hdirs, clean, hrooted, hsplit, hkept, List.reverse_reverse]
    simp [joinWith_ne_nil h hdirs]

theorem extension_joinWith : extension (joinWith [slash] (dirs ++ [name])) = extension name := by
  rw [extension, extension, split_joinWith h, split_of_not_mem (h name (by simp)).2]

theorem join_dir {x : Text} (hx : isValidPart x = true ∧ slash ∉ x) :
    join [dir (joinWith [slash] (dirs ++ [name])), x] = joinWith [slash] (dirs ++ [x]) := by
  obtain ⟨hne, -, -⟩ := isValidPart_iff.mp hx.1
  rw [dir_joinWith h]
  by_cases hdirs : dirs = []
  · have hsplit : splitOn slash (dot :: slash :: x) = [[dot], x] := by
      rw [← splitOn_of_not_mem hx.2]
      exact splitOn_append slash [dot] x
    have hclean : clean (dot :: slash :: x) = x := by
      have hrooted : isRooted (dot :: slash :: x) = false := rfl
      rw [clean, hsplit, hrooted, List.foldl_cons, push_of_skip (by decide), List.foldl_cons,
        push_of_valid hx.1]
      simp [joinWith, hne]
    simpa [hdirs, join, hne, joinWith] using hclean
  · have hparts : ∀ part ∈ dirs ++ [x], isValidPart part = true ∧ slash ∉ part := by
      intro part hpart
      rcases List.mem_append.mp hpart with hpart | hpart
      · exact h part (List.mem_append_left _ hpart)
      · exact List.mem_singleton.mp hpart ▸ hx
    have hjoin : join [joinWith [slash] dirs, x] = clean (joinWith [slash] (dirs ++ [x])) := by
      simp [join, hne, joinWith_ne_nil h hdirs, joinWith, joinWith_concat _ _ hdirs]
    rw [if_neg hdirs, hjoin, clean_joinWith (by simp) hparts]

end

theorem mem_of_mem_splitOn_joinWith {parts : List Text} {part : Text}
    (hparts : ∀ part ∈ parts, slash ∉ part) (h : part ∈ splitOn slash (joinWith [slash] parts))
    (hpart : isValidPart part = true) : part ∈ parts := by
  by_cases hne : parts = []
  · rw [hne, joinWith, splitOn, List.mem_singleton] at h
    exact absurd h (isValidPart_iff.mp hpart).1
  · rwa [splitOn_joinWith hne hparts] at h

theorem mem_splitOn_of_clean {p part : Text} (h : part ∈ splitOn slash (clean p))
    (hpart : isValidPart part = true) : part ∈ splitOn slash p := by
  obtain ⟨hne, hdot, -⟩ := isValidPart_iff.mp hpart
  have hkept {x : Text} (hx : x ∈ ((splitOn slash p).foldl (push (isRooted p)) []).reverse) :
      x ∈ splitOn slash p := by
    rcases mem_foldl_push (List.mem_reverse.mp hx) with hnil | ⟨hmem, -⟩
    · cases hnil
    · exact hmem
  have hparts := fun x hx => not_mem_of_mem_splitOn (@hkept x hx)
  unfold clean at h
  dsimp only at h
  split at h
  · rw [splitOn_sep_cons, List.mem_cons] at h
    exact hkept (mem_of_mem_splitOn_joinWith hparts (h.resolve_left hne) hpart)
  · split at h
    · rw [splitOn_of_not_mem (by decide), List.mem_singleton] at h
      exact absurd h hdot
    · exact hkept (mem_of_mem_splitOn_joinWith hparts h hpart)

end Stencil.Path
