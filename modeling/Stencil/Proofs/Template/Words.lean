import Stencil.Proofs.Text.Split
import Stencil.Template.Words

namespace Stencil.Words

open Ascii

def Closes (previous : UInt8) : Text → Prop
  | [] => previous ≠ backslash
  | c :: rest => (c = quote → previous = backslash) ∧ Closes c rest

def Writable (w : Text) : Prop :=
  isBare w = true ∨ Closes quote w

def Stops (rest : Text) : Prop :=
  rest = [] ∨ ∃ c tail, rest = c :: tail ∧ isSpace c = true

theorem isBare_cons {c : UInt8} {w : Text} :
    isBare (c :: w) = true ↔ c ≠ quote ∧ ∀ d ∈ c :: w, isSpace d = false := by
  simp [isBare]

theorem isBare_snoc {w : Text} {c : UInt8} (h : isBare w = true) (hc : isSpace c = false) :
    isBare (w ++ [c]) = true := by
  cases w with
  | nil => cases h
  | cons d w =>
    obtain ⟨hd, hall⟩ := isBare_cons.mp h
    have hsnoc : ∀ e ∈ d :: w ++ [c], isSpace e = false :=
      List.forall_mem_append.mpr ⟨hall, List.forall_mem_singleton.mpr hc⟩
    exact isBare_cons.mpr ⟨hd, hsnoc⟩

theorem read_bare {w : Text} (hw : ∀ c ∈ w, isSpace c = false) {rest : Text} (hr : Stops rest)
    (taken : Text) :
    read (.bare taken) (w ++ rest) = (read .between rest).map ((taken.reverse ++ w) :: ·) := by
  induction w generalizing taken with
  | nil =>
    obtain rfl | ⟨c, tail, rfl, hc⟩ := hr
    · simp [read]
    · simp [read, hc]
  | cons c w ih =>
    obtain ⟨hc, hw⟩ := List.forall_mem_cons.mp hw
    rw [List.cons_append, read, if_neg (by simp [hc]), ih hw]
    simp

theorem read_quoted {previous : UInt8} {w : Text} (hw : Closes previous w) (rest taken : Text) :
    read (.quoted previous taken) (w ++ quote :: rest) =
      (read .between rest).map ((taken.reverse ++ w) :: ·) := by
  induction w generalizing previous taken with
  | nil =>
    have hp : previous ≠ backslash := hw
    simp [read, hp]
  | cons c w ih =>
    obtain ⟨hc, hw⟩ := hw
    have hopen : ¬ (c = quote ∧ previous ≠ backslash) := fun h => h.2 (hc h.1)
    rw [List.cons_append, read, if_neg hopen, ih hw]
    simp

theorem read_write {w : Text} (hw : Writable w) {rest : Text} (hr : Stops rest) :
    read .between (write w ++ rest) = (read .between rest).map (w :: ·) := by
  unfold write
  split
  · rename_i hbare
    cases w with
    | nil => cases hbare
    | cons c w =>
      obtain ⟨hc, hall⟩ := isBare_cons.mp hbare
      obtain ⟨hspace, hall⟩ := List.forall_mem_cons.mp hall
      rw [List.cons_append, read, if_neg (by simp [hspace]), if_neg hc, read_bare hall hr]
      simp
  · rename_i hbare
    have hcloses : Closes quote w := hw.resolve_left hbare
    have hspace : ¬ isSpace quote = true := by decide
    have hword : quote :: w ++ [quote] ++ rest = quote :: (w ++ quote :: rest) := by simp
    rw [hword, read, if_neg hspace, if_pos rfl, read_quoted hcloses]
    rfl

theorem split?_join {words : List Text} (h : ∀ w ∈ words, Writable w) :
    split? (join words) = some words := by
  unfold split? join
  induction words with
  | nil => rfl
  | cons w words ih =>
    obtain ⟨hw, hwords⟩ := List.forall_mem_cons.mp h
    cases words with
    | nil =>
      have hlast := read_write hw (.inl rfl)
      rw [List.append_nil] at hlast
      rw [List.map_singleton, Text.joinWith, hlast]
      rfl
    | cons v words =>
      have hstops : Stops ([space] ++ Text.joinWith [space] ((v :: words).map write)) :=
        .inr ⟨space, _, rfl, rfl⟩
      have hspace : isSpace space = true := rfl
      rw [List.map_cons, Text.joinWith_cons _ _ (by simp), List.append_assoc, read_write hw hstops,
        List.singleton_append, read, if_pos hspace, ih hwords]
      rfl

namespace State

def taken : State → Text
  | .between => []
  | .bare taken | .quoted _ taken => taken

def Sound : State → Prop
  | .between => True
  | .bare taken => isBare taken.reverse = true
  | .quoted previous taken => ∀ tail, Closes previous tail → Closes quote (taken.reverse ++ tail)

end State

theorem writable_of_read {state : State} {s : Text} {words : List Text} (hs : state.Sound)
    (h : read state s = some words) : ∀ w ∈ words, Writable w := by
  fun_induction read state s generalizing words with
  | case1 => cases h; simp
  | case2 c rest hc ih => exact ih trivial h
  | case3 rest _ ih => exact ih (fun _ htail => htail) h
  | case4 c rest hc hq ih =>
    refine ih ?_ h
    exact isBare_cons.mpr ⟨hq, by simpa using hc⟩
  | case5 taken =>
    cases h
    exact List.forall_mem_singleton.mpr (.inl hs)
  | case6 taken c rest hc ih =>
    obtain ⟨others, ho, rfl⟩ := Option.map_eq_some_iff.mp h
    exact List.forall_mem_cons.mpr ⟨.inl hs, ih trivial ho⟩
  | case7 taken c rest hc ih =>
    refine ih ?_ h
    have hsnoc := isBare_snoc hs (Bool.eq_false_iff.mpr hc)
    rwa [← List.reverse_cons] at hsnoc
  | case8 => cases h
  | case9 previous taken c rest hc ih =>
    obtain ⟨others, ho, rfl⟩ := Option.map_eq_some_iff.mp h
    have hword := hs [] hc.2
    rw [List.append_nil] at hword
    exact List.forall_mem_cons.mpr ⟨.inr hword, ih trivial ho⟩
  | case10 previous taken c rest hc ih =>
    refine ih ?_ h
    intro tail htail
    rw [List.reverse_cons, List.append_assoc]
    exact hs _ ⟨fun hq => Classical.not_not.mp fun hp => hc ⟨hq, hp⟩, htail⟩

theorem not_mem_of_read {b : UInt8} {state : State} {s : Text} {words : List Text}
    (ht : b ∉ state.taken) (hs : b ∉ s) (h : read state s = some words) : ∀ w ∈ words, b ∉ w := by
  fun_induction read state s generalizing words with
  | case1 => cases h; simp
  | case2 c rest hc ih => exact ih ht (List.not_mem_of_not_mem_cons hs) h
  | case3 rest _ ih => exact ih ht (List.not_mem_of_not_mem_cons hs) h
  | case4 c rest hc hq ih =>
    refine ih ?_ (List.not_mem_of_not_mem_cons hs) h
    exact fun hm => hs (List.mem_singleton.mp hm ▸ List.mem_cons_self)
  | case5 taken =>
    cases h
    exact List.forall_mem_singleton.mpr (mt List.mem_reverse.mp ht)
  | case6 taken c rest hc ih =>
    obtain ⟨others, ho, rfl⟩ := Option.map_eq_some_iff.mp h
    have hothers := ih List.not_mem_nil (List.not_mem_of_not_mem_cons hs) ho
    exact List.forall_mem_cons.mpr ⟨mt List.mem_reverse.mp ht, hothers⟩
  | case7 taken c rest hc ih =>
    exact ih (List.not_mem_cons_of_ne_of_not_mem (List.ne_of_not_mem_cons hs) ht)
      (List.not_mem_of_not_mem_cons hs) h
  | case8 => cases h
  | case9 previous taken c rest hc ih =>
    obtain ⟨others, ho, rfl⟩ := Option.map_eq_some_iff.mp h
    have hothers := ih List.not_mem_nil (List.not_mem_of_not_mem_cons hs) ho
    exact List.forall_mem_cons.mpr ⟨mt List.mem_reverse.mp ht, hothers⟩
  | case10 previous taken c rest hc ih =>
    exact ih (List.not_mem_cons_of_ne_of_not_mem (List.ne_of_not_mem_cons hs) ht)
      (List.not_mem_of_not_mem_cons hs) h

theorem not_mem_join {b : UInt8} (hspace : b ≠ space) (hquote : b ≠ quote) {words : List Text}
    (h : ∀ w ∈ words, b ∉ w) : b ∉ join words := by
  intro hb
  obtain hb | ⟨part, hpart, hb⟩ := Text.mem_joinWith hb
  · exact hspace hb
  · obtain ⟨w, hw, rfl⟩ := List.mem_map.mp hpart
    unfold write at hb
    split at hb
    · exact h w hw hb
    · have hword : b ∈ w := by simpa [hquote] using hb
      exact h w hw hword

end Stencil.Words
