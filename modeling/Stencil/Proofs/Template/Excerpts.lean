import Stencil.Proofs.Cache.Fields
import Stencil.Proofs.Template.Reading
import Stencil.Proofs.Text.Split

namespace Stencil

open Ascii Text

namespace Text

theorem newline_not_mem_ofNat (n : Nat) : newline ∉ ofNat n := by
  rw [ofNat_eq]
  intro h
  obtain ⟨c, hc, hbyte⟩ := List.mem_map.mp h
  obtain ⟨hlow, hhigh⟩ := isDigit_bounds (Nat.isDigit_of_mem_toDigits (by omega) (by omega) hc)
  have hnat := congrArg UInt8.toNat hbyte
  rw [UInt8.toNat_ofNat'] at hnat
  have hnewline : newline.toNat = 10 := rfl
  omega

theorem lines_flatMap {α : Type} {f : α → Text} {list : List α} (h : ∀ a ∈ list, newline ∉ f a) :
    lines (list.flatMap fun a => f a ++ [newline]) = list.map f ++ [[]] := by
  induction list with
  | nil => rfl
  | cons a list ih =>
    obtain ⟨ha, hlist⟩ := List.forall_mem_cons.mp h
    have hsplit : ((a :: list).flatMap fun a => f a ++ [newline]) =
        f a ++ newline :: list.flatMap fun a => f a ++ [newline] := by simp
    have hrest : splitOn newline (list.flatMap fun a => f a ++ [newline]) = list.map f ++ [[]] :=
      ih hlist
    rw [lines, hsplit, splitOn_append, splitOn_of_not_mem ha, hrest]
    rfl

end Text

namespace Excerpt

theorem lineOf?_bounds {source part : Text} {k : Nat} (h : lineOf? source part = some k) :
    1 ≤ k ∧ k ≤ (lines source).length := by
  obtain ⟨i, hi, rfl⟩ := Option.map_eq_some_iff.mp h
  obtain ⟨hlt, -⟩ := List.findIdx?_eq_some_iff_getElem.mp hi
  omega

theorem estimateLine_bounds (source fragment : Text) :
    1 ≤ estimateLine source fragment ∧ estimateLine source fragment ≤ (lines source).length := by
  have hlines : 1 ≤ (lines source).length :=
    List.length_pos_iff.mpr (splitOn_ne_nil newline source)
  rw [estimateLine]
  cases hfound : List.findSome? (·.bind (lineOf? source)) [some fragment, placeholderPart? fragment,
      directivePart? fragment, headPart? fragment] with
  | none => exact ⟨Nat.le_refl 1, hlines⟩
  | some k =>
    obtain ⟨part, -, hpart⟩ := List.exists_of_findSome?_eq_some hfound
    obtain ⟨text, -, hline⟩ := Option.bind_eq_some_iff.mp hpart
    exact lineOf?_bounds hline

def rowLine (marked : Int) (number : Nat) (line : Text) : Text :=
  (if (number : Int) = marked then utf8 "> " else utf8 "  ") ++ padLeft 4 (ofNat number) ++
    utf8 " | " ++ line

theorem newline_not_mem_rowLine (marked : Int) (number : Nat) {line : Text} (h : newline ∉ line) :
    newline ∉ rowLine marked number line := by
  have hmark : newline ∉ (if (number : Int) = marked then utf8 "> " else utf8 "  ") := by
    split <;> decide
  have hbar : newline ∉ utf8 " | " := by decide
  have hspace : newline ≠ space := by decide
  simp [rowLine, padLeft, hmark, hbar, h, newline_not_mem_ofNat, hspace]

theorem startsWith_rowLine (marked : Int) (number : Nat) (line : Text) :
    startsWith (rowLine marked number line) (utf8 "> ") = decide ((number : Int) = marked) := by
  rw [rowLine, List.append_assoc, List.append_assoc]
  by_cases h : (number : Int) = marked
  · rw [if_pos h, startsWith_append, decide_eq_true h]
  · rw [if_neg h, decide_eq_false h]
    rfl

theorem shown_eq (pre : List Text) (text : Text) (post : List Text) :
    ∃ before after,
      (((pre ++ text :: post).zipIdx 1).take (pre.length + 1 + 2)).drop (pre.length + 1 - 3) =
        before ++ (text, pre.length + 1) :: after ∧
      (∀ entry ∈ before, entry.2 ≠ pre.length + 1) ∧
      ∀ entry ∈ after, entry.2 ≠ pre.length + 1 := by
  have htake : (pre.zipIdx 1).take (pre.length + 1 + 2) = pre.zipIdx 1 :=
    List.take_of_length_le (by rw [List.length_zipIdx]; omega)
  have hthree : pre.length + 1 + 2 - pre.length = 3 := by omega
  have hzero : pre.length + 1 - 3 - pre.length = 0 := by omega
  refine ⟨(pre.zipIdx 1).drop (pre.length + 1 - 3), (post.zipIdx (pre.length + 2)).take 2, ?_,
    fun entry hentry => ?_, fun entry hentry => ?_⟩
  · rw [List.zipIdx_append, List.zipIdx_cons, List.take_append, htake, List.length_zipIdx, hthree,
      List.take_succ_cons, List.drop_append, List.length_zipIdx, hzero, List.drop_zero,
      Nat.add_comm 1]
  · have hbound := List.snd_lt_add_of_mem_zipIdx (List.mem_of_mem_drop hentry)
    omega
  · have hbound := List.le_snd_of_mem_zipIdx (List.mem_of_mem_take hentry)
    omega

theorem lines_around (source : Text) (k : Nat) :
    lines (around source k 2) =
      [] :: ((((lines source).zipIdx 1).take (k + 2)).drop (k - 3)).map
        (fun entry => rowLine k entry.2 entry.1) ++ [[]] := by
  have hfirst : ((k : Int) - 2 - 1).toNat = k - 3 := by omega
  have hend : ((k : Int) + 2).toNat = k + 2 := by omega
  rw [around, hfirst, hend, lines, splitOn_sep_cons]
  refine congrArg ([] :: ·) (lines_flatMap fun entry hentry => newline_not_mem_rowLine _ _ ?_)
  have hmem := List.fst_mem_of_mem_zipIdx (List.mem_of_mem_take (List.mem_of_mem_drop hentry))
  exact not_mem_of_mem_splitOn hmem

theorem filter_lines_around {source text : Text} {pre post : List Text}
    (h : lines source = pre ++ text :: post) :
    (lines (around source (pre.length + 1 : Nat) 2)).filter (startsWith · (utf8 "> ")) =
      [utf8 "> " ++ padLeft 4 (ofNat (pre.length + 1)) ++ utf8 " | " ++ text] := by
  obtain ⟨before, after, hshown, hbefore, hafter⟩ := shown_eq pre text post
  have hunmarked {entries : List (Text × Nat)} (hno : ∀ entry ∈ entries, entry.2 ≠ pre.length + 1) :
      (entries.map fun entry => rowLine (pre.length + 1 : Nat) entry.2 entry.1).filter
        (startsWith · (utf8 "> ")) = [] := by
    rw [List.filter_eq_nil_iff, List.forall_mem_map]
    intro entry hentry
    rw [startsWith_rowLine, decide_eq_true_eq]
    exact fun he => hno entry hentry (Int.ofNat.inj he)
  have hmarked : startsWith (rowLine (pre.length + 1 : Nat) (pre.length + 1) text) (utf8 "> ") := by
    rw [startsWith_rowLine, decide_eq_true_eq]
  -- the excerpt starts and ends with a newline, so its first and last line are empty
  have hempty : startsWith [] (utf8 "> ") = false := rfl
  rw [lines_around, h, hshown, List.cons_append, List.filter_cons_of_neg (by simp [hempty]),
    List.map_append, List.map_cons, List.filter_append, List.filter_append, hunmarked hbefore,
    List.filter_cons_of_pos (p := (startsWith · (utf8 "> "))) hmarked, hunmarked hafter,
    List.filter_cons_of_neg (by simp [hempty])]
  simp [rowLine]

theorem exists_marked_line {source : Text} {line : Nat} (hfirst : 1 ≤ line)
    (hlast : line ≤ (lines source).length) :
    ∃ text, (lines source)[line - 1]? = some text ∧
      (lines (around source line 2)).filter (startsWith · (utf8 "> ")) =
        [utf8 "> " ++ padLeft 4 (ofNat line) ++ utf8 " | " ++ text] := by
  obtain ⟨i, rfl⟩ : ∃ i, line = i + 1 := ⟨line - 1, (Nat.sub_add_cancel hfirst).symm⟩
  have hsplit : lines source =
      (lines source).take i ++ (lines source)[i] :: (lines source).drop (i + 1) := by
    rw [← List.drop_eq_getElem_cons hlast, List.take_append_drop]
  have hlength : ((lines source).take i).length = i := List.length_take_of_le (Nat.le_of_lt hlast)
  have hmark := filter_lines_around hsplit
  rw [hlength] at hmark
  exact ⟨_, List.getElem?_eq_getElem hlast, hmark⟩

end Excerpt

/-- The line is one of the source, and in the excerpt at the end of the message the line of that
number is the one with the mark. -/
def Malformed.ShownIn (source : Text) (m : Malformed) : Prop :=
  ∃ (line : Nat) (text : Text), 1 ≤ line ∧ line ≤ (lines source).length ∧ m.place.line = line ∧
    (lines source)[line - 1]? = some text ∧ m.place.excerpt <:+ m.message ∧
    (lines m.place.excerpt).filter (startsWith · (utf8 "> ")) =
      [utf8 "> " ++ padLeft 4 (ofNat line) ++ utf8 " | " ++ text]

namespace TextError

def place : TextError → Place
  | .malformed e => e.place
  | .conflict e => e.place

def Raw : TextError → Prop
  | .malformed e => e.fragment ≠ [] ∧ e.place = {}
  | .conflict e => e.place = {}

theorem locate_of_path {e : TextError} (h : e.place.path ≠ []) (path : Text)
    (source : Option Text) : e.locate path source = e := by
  cases e with
  | malformed e | conflict e => exact if_pos (by simpa [place] using h)

theorem path_locate_ne_nil {path : Text} (h : path ≠ []) (source : Option Text) (e : TextError) :
    (e.locate path source).place.path ≠ [] := by
  by_cases hpath : e.place.path = []
  · cases e with
    | malformed e =>
      replace hpath : e.place.path = [] := hpath
      simp only [locate, hpath, List.isEmpty_nil, Bool.not_true, Bool.false_eq_true, if_false]
      split
      · split <;> exact h
      · exact h
    | conflict e =>
      replace hpath : e.place.path = [] := hpath
      simp only [locate, hpath, List.isEmpty_nil, Bool.not_true, Bool.false_eq_true, if_false]
      cases source with
      | none => exact h
      | some s =>
        cases hline : Excerpt.holeLine? s e.clash.name <;>
          simpa [hline, place, Place.ofLine] using h
  · rwa [locate_of_path hpath]

theorem locate_twice (path : Text) (source : Option Text) (e : TextError) :
    (e.locate path source).locate path source = e.locate path source := by
  by_cases hpath : path = []
  · -- an empty path does not count as known, but the same place is found again
    subst hpath
    cases e with
    | malformed e =>
      obtain ⟨fault, fragment, detail, file, line, excerpt⟩ := e
      cases source with
      | none => cases file <;> rfl
      | some s =>
        cases file with
        | nil => cases fragment <;> rfl
        | cons => rfl
    | conflict e =>
      obtain ⟨clash, file, line, excerpt⟩ := e
      cases file with
      | nil =>
        cases source with
        | none => rfl
        | some s =>
          cases hline : Excerpt.holeLine? s clash.name <;> simp [locate, hline, Place.ofLine]
      | cons => rfl
  · exact locate_of_path (path_locate_ne_nil hpath source e) path source

theorem Raw.path_locate {e : TextError} (h : e.Raw) (path source : Text) :
    (e.locate path (some source)).place.path = path := by
  cases e with
  | malformed e =>
    obtain ⟨fault, fragment, detail, place⟩ := e
    obtain ⟨hfragment, rfl⟩ := h
    simp only [locate, List.isEmpty_nil, Bool.not_true, Bool.false_eq_true, if_false]
    split <;> rfl
  | conflict e =>
    obtain ⟨clash, place⟩ := e
    cases h
    simp only [locate, List.isEmpty_nil, Bool.not_true, Bool.false_eq_true, if_false,
      Option.bind_some]
    cases Excerpt.holeLine? source clash.name <;> rfl

theorem Raw.shownIn_of_locate {e : TextError} (h : e.Raw) {path source : Text} {m : Malformed}
    (hm : e.locate path (some source) = .malformed m) : m.ShownIn source := by
  cases e with
  | conflict e =>
    obtain ⟨place, hplace⟩ := Scan.locate_conflict path (some source) e.clash e.place
    cases hplace.symm.trans hm
  | malformed e =>
    obtain ⟨fault, fragment, detail, place⟩ := e
    obtain ⟨hfragment, rfl⟩ := h
    have hlocated : m = ⟨fault, fragment, detail,
        Place.ofLine path source (Excerpt.estimateLine source fragment)⟩ := by
      simp only [locate, List.isEmpty_nil, Bool.not_true, Bool.false_eq_true, if_false] at hm
      rw [if_neg (by simpa using hfragment)] at hm
      exact (TextError.malformed.inj hm).symm
    obtain ⟨hfirst, hlast⟩ := Excerpt.estimateLine_bounds source fragment
    obtain ⟨text, htext, hmark⟩ := Excerpt.exists_marked_line hfirst hlast
    subst hlocated
    exact ⟨_, text, hfirst, hlast, rfl, htext, List.suffix_append _ _, hmark⟩

end TextError

namespace Directive

theorem raw_of_holeOf {a : Markup.Attribute} {e : TextError} (h : holeOf a = .error e) : e.Raw := by
  have hfragment : fragment a ≠ [] := by simp [fragment]
  unfold holeOf at h
  split at h
  · cases h
    exact ⟨hfragment, rfl⟩
  · cases h
    exact ⟨hfragment, rfl⟩
  · split at h
    · cases h
    · cases h
      exact ⟨hfragment, rfl⟩

theorem raw_of_update {d : Directive} {name : Text} {a : Markup.Attribute} {e : TextError}
    (h : d.update name a = .error e) : e.Raw := by
  have hholeOf {f : Text × List Text → Directive}
      (h : (holeOf a >>= fun p => pure (f p)) = .error e) : e.Raw := by
    cases hhole : holeOf a with
    | error e' =>
      rw [hhole] at h
      cases h
      exact raw_of_holeOf hhole
    | ok p =>
      rw [hhole] at h
      cases h
  unfold update at h
  split at h
  · exact hholeOf h
  · split at h
    · exact hholeOf h
    · split at h
      · cases h
      · cases h
        exact ⟨by simp [fragment], rfl⟩

theorem raw_of_readFrom {attrs : List Markup.Attribute} {d : Directive} {e : TextError}
    (h : readFrom d attrs = .error e) : e.Raw := by
  induction attrs generalizing d with
  | nil => cases h
  | cons a rest ih =>
    unfold readFrom at h
    split at h
    · cases hrest : readFrom d rest with
      | error e' =>
        rw [hrest] at h
        cases h
        exact ih hrest
      | ok p =>
        rw [hrest] at h
        cases h
    · rename_i name hname
      cases hupdate : d.update name a with
      | error e' =>
        rw [hupdate] at h
        cases h
        exact raw_of_update hupdate
      | ok d' =>
        rw [hupdate] at h
        exact ih h

theorem raw_of_read {attrs : List Markup.Attribute} {e : TextError} (h : read attrs = .error e) :
    e.Raw :=
  raw_of_readFrom h

end Directive

namespace Scan

variable {α β : Type}

def RaisesRaw (action : Scan α) : Prop :=
  ∀ table e next, action.run table = (.error e, next) → e.Raw

theorem raisesRaw_pure (a : α) : RaisesRaw (pure a) := by
  intro table e next h
  cases h

theorem raisesRaw_malformed {fault : SyntaxFault} {fragment detail : Text} (h : fragment ≠ []) :
    RaisesRaw (throw (.malformed ⟨fault, fragment, detail, {}⟩) : Scan α) := by
  intro table e next hrun
  cases hrun
  exact ⟨h, rfl⟩

theorem raisesRaw_lift {result : Except TextError α} (h : ∀ e, result = .error e → e.Raw) :
    RaisesRaw (lift result) := by
  intro table e next hrun
  cases result with
  | ok a => cases hrun
  | error e' =>
    cases hrun
    exact h _ rfl

theorem RaisesRaw.bind {action : Scan α} {f : α → Scan β} (h : RaisesRaw action)
    (hf : ∀ a, RaisesRaw (f a)) : RaisesRaw (action >>= f) := by
  intro table e next hrun
  rw [run_bind] at hrun
  rcases haction : action.run table with ⟨e' | a, middle⟩
  · rw [haction] at hrun
    cases hrun
    exact h _ _ _ haction
  · rw [haction] at hrun
    exact hf a _ _ _ hrun

theorem raisesRaw_mapM {f : α → Scan β} (h : ∀ a, RaisesRaw (f a)) (list : List α) :
    RaisesRaw (list.mapM f) := by
  induction list with
  | nil => exact raisesRaw_pure _
  | cons a list ih =>
    rw [List.mapM_cons]
    exact (h a).bind fun b => ih.bind fun bs => raisesRaw_pure _

theorem raisesRaw_register (name : Text) (type : HoleType) : RaisesRaw (register name type) := by
  intro table e next h
  rw [run_register] at h
  cases hregister : table.register name type with
  | ok table' =>
    rw [hregister] at h
    cases h
  | error clash =>
    rw [hregister] at h
    cases h
    rfl

theorem raisesRaw_placeholder (inner : Text) : RaisesRaw (placeholder inner) := by
  have hfragment : utf8 "$\x7b" ++ inner ++ [closeBrace] ≠ [] := by simp
  unfold placeholder
  dsimp only
  split
  · exact raisesRaw_malformed hfragment
  · exact raisesRaw_malformed hfragment
  · split
    · exact raisesRaw_malformed hfragment
    · split
      · exact (raisesRaw_register _ _).bind fun _ => raisesRaw_pure _
      · exact (raisesRaw_register _ _).bind fun _ => raisesRaw_pure _

theorem raisesRaw_stretch (s : Stretch) : RaisesRaw (stretch s) := by
  cases s with
  | literal text => exact raisesRaw_pure _
  | placeholder inner => exact raisesRaw_placeholder inner
  | unclosed inner => exact raisesRaw_malformed (List.append_ne_nil_of_left_ne_nil (by decide) _)

theorem raisesRaw_text (s : Text) : RaisesRaw (text s) :=
  raisesRaw_mapM raisesRaw_stretch _

theorem raisesRaw_attr (a : Markup.Attribute) : RaisesRaw (attr a) :=
  (raisesRaw_text a.value).bind fun _ => raisesRaw_pure _

theorem raisesRaw_attrs (list : List Markup.Attribute) : RaisesRaw (attrs list) :=
  raisesRaw_mapM raisesRaw_attr list

end Scan

end Stencil
