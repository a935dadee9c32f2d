import Mathlib.Data.List.Induction
import Mathlib.Order.Bounds.Defs
import Stencil.Text.Distance

namespace Stencil.Text

inductive Edit : Text → Text → Prop where
  | insert (l : Text) (c : UInt8) (r : Text) : Edit (l ++ r) (l ++ c :: r)
  | delete (l : Text) (c : UInt8) (r : Text) : Edit (l ++ c :: r) (l ++ r)
  | substitute (l : Text) (c d : UInt8) (r : Text) : Edit (l ++ c :: r) (l ++ d :: r)

inductive Edits : Nat → Text → Text → Prop where
  | refl (a : Text) : Edits 0 a a
  | step {n : Nat} {a b c : Text} : Edit a b → Edits n b c → Edits (n + 1) a c

theorem Edit.symm {a b : Text} (h : Edit a b) : Edit b a := by
  cases h with
  | insert l c r => exact .delete l c r
  | delete l c r => exact .insert l c r
  | substitute l c d r => exact .substitute l d c r

theorem Edit.append {a b : Text} (h : Edit a b) (t : Text) : Edit (a ++ t) (b ++ t) := by
  cases h with
  | insert l c r => simpa using Edit.insert l c (r ++ t)
  | delete l c r => simpa using Edit.delete l c (r ++ t)
  | substitute l c d r => simpa using Edit.substitute l c d (r ++ t)

namespace Edits

variable {n k : Nat} {a b c : Text}

theorem trans (h : Edits n a b) (h' : Edits k b c) : Edits (n + k) a c := by
  induction h with
  | refl a => rwa [Nat.zero_add]
  | @step n a b₁ b hedit _ ih =>
    have hrest := Edits.step hedit (ih h')
    rwa [Nat.add_right_comm] at hrest

theorem concat (h : Edits n a b) (hedit : Edit b c) : Edits (n + 1) a c :=
  h.trans (.step hedit (.refl c))

theorem symm (h : Edits n a b) : Edits n b a := by
  induction h with
  | refl a => exact .refl a
  | step hedit _ ih => exact ih.concat hedit.symm

theorem append (h : Edits n a b) (t : Text) : Edits n (a ++ t) (b ++ t) := by
  induction h with
  | refl a => exact .refl _
  | step hedit _ ih => exact .step (hedit.append t) ih

theorem zero_iff : Edits 0 a b ↔ a = b := by
  constructor
  · intro h
    cases h
    rfl
  · rintro rfl
    exact .refl a

end Edits

/-- An alignment of two texts, column by column, with the number of columns that are no match. -/
inductive Aligns : Text → Text → Nat → Prop where
  | nil : Aligns [] [] 0
  | keep {a b : Text} {n : Nat} (c : UInt8) : Aligns a b n → Aligns (a ++ [c]) (b ++ [c]) n
  | insert {a b : Text} {n : Nat} (c : UInt8) : Aligns a b n → Aligns a (b ++ [c]) (n + 1)
  | delete {a b : Text} {n : Nat} (c : UInt8) : Aligns a b n → Aligns (a ++ [c]) b (n + 1)
  | substitute {a b : Text} {n : Nat} (c d : UInt8) : Aligns a b n →
      Aligns (a ++ [c]) (b ++ [d]) (n + 1)

theorem Edit.of_snoc {a b : Text} {c : UInt8} (h : Edit a (b ++ [c])) :
    (∃ a₀, a = a₀ ++ [c] ∧ Edit a₀ b) ∨ a = b ∨ (∃ d, a = b ++ [d]) ∨ ∃ d, a = b ++ [c] ++ [d] := by
  generalize htarget : b ++ [c] = t at h
  -- What stands after the edit is empty, or it ends in `c` and the edit is one of the texts before.
  cases h with
  | insert l d r =>
    rcases List.eq_nil_or_concat r with rfl | ⟨r, e, rfl⟩
    · obtain ⟨rfl, -⟩ := List.append_inj' htarget rfl
      exact .inr (.inl (List.append_nil b))
    · rw [List.concat_eq_append, ← List.cons_append, ← List.append_assoc] at htarget
      obtain ⟨rfl, he⟩ := List.append_inj' htarget rfl
      cases he
      exact .inl ⟨l ++ r, by simp, .insert l d r⟩
  | delete l d r =>
    rcases List.eq_nil_or_concat r with rfl | ⟨r, e, rfl⟩
    · rw [List.append_nil] at htarget
      subst htarget
      exact .inr (.inr (.inr ⟨d, by simp⟩))
    · rw [List.concat_eq_append, ← List.append_assoc] at htarget
      obtain ⟨rfl, he⟩ := List.append_inj' htarget rfl
      cases he
      exact .inl ⟨l ++ d :: r, by simp, .delete l d r⟩
  | substitute l d e r =>
    rcases List.eq_nil_or_concat r with rfl | ⟨r, e', rfl⟩
    · obtain ⟨rfl, -⟩ := List.append_inj' htarget rfl
      exact .inr (.inr (.inl ⟨d, rfl⟩))
    · rw [List.concat_eq_append, ← List.cons_append, ← List.append_assoc] at htarget
      obtain ⟨rfl, he⟩ := List.append_inj' htarget rfl
      cases he
      exact .inl ⟨l ++ d :: r, by simp, .substitute l d e r⟩

theorem Edit.to_nil {a : Text} (h : Edit a []) : ∃ c, a = [c] := by
  generalize htarget : ([] : Text) = t at h
  cases h with
  | insert l c r => simp at htarget
  | substitute l c d r => simp at htarget
  | delete l c r =>
    obtain ⟨rfl, rfl⟩ := List.append_eq_nil_iff.mp htarget.symm
    exact ⟨c, rfl⟩

namespace Aligns

variable {n k : Nat} {a b : Text}

theorem edits (h : Aligns a b n) : Edits n a b := by
  induction h with
  | nil => exact .refl []
  | keep c _ ih => exact ih.append [c]
  | @insert a b n c _ ih =>
    have hlast := Edit.insert b c []
    rw [List.append_nil] at hlast
    exact ih.concat hlast
  | @delete a b n c _ ih =>
    have hlast := Edit.delete b c []
    rw [List.append_nil] at hlast
    exact (ih.append [c]).concat hlast
  | @substitute a b n c d _ ih => exact (ih.append [c]).concat (.substitute b c d [])

theorem refl (a : Text) : Aligns a a 0 := by
  induction a using List.reverseRecOn with
  | nil => exact .nil
  | append_singleton a c ih => exact ih.keep c

theorem length_le (h : Aligns a b n) : a.length ≤ b.length + n ∧ b.length ≤ a.length + n := by
  induction h with
  | nil => exact ⟨Nat.le_refl _, Nat.le_refl _⟩
  | keep => simp only [List.length_append, List.length_singleton]; omega
  | insert => simp only [List.length_append, List.length_singleton]; omega
  | delete => simp only [List.length_append, List.length_singleton]; omega
  | substitute => simp only [List.length_append, List.length_singleton]; omega

theorem of_snoc_snoc {x c : UInt8} (h : Aligns (a ++ [x]) (b ++ [c]) n) :
    (x = c ∧ Aligns a b n) ∨
      ∃ k, n = k + 1 ∧ (Aligns a b k ∨ Aligns a (b ++ [c]) k ∨ Aligns (a ++ [x]) b k) := by
  generalize ha : a ++ [x] = a', hb : b ++ [c] = b' at h
  cases h with
  | nil => simp at ha
  | keep y h =>
    obtain ⟨rfl, hx⟩ := List.append_inj' ha rfl
    obtain ⟨rfl, hc⟩ := List.append_inj' hb rfl
    cases hx
    cases hc
    exact .inl ⟨rfl, h⟩
  | substitute y z h =>
    obtain ⟨rfl, -⟩ := List.append_inj' ha rfl
    obtain ⟨rfl, -⟩ := List.append_inj' hb rfl
    exact .inr ⟨_, rfl, .inl h⟩
  | delete y h =>
    obtain ⟨rfl, -⟩ := List.append_inj' ha rfl
    exact .inr ⟨_, rfl, .inr (.inl h)⟩
  | insert y h =>
    obtain ⟨rfl, -⟩ := List.append_inj' hb rfl
    exact .inr ⟨_, rfl, .inr (.inr h)⟩

theorem edit_cons (h : Aligns a b n) {a' : Text} (hedit : Edit a' a) :
    ∃ k ≤ n + 1, Aligns a' b k := by
  -- Along the columns: an edit before the last column goes to the rest of the alignment, and one at
  -- the last column changes that column or puts a deletion after it.
  induction h generalizing a' with
  | nil =>
    obtain ⟨c, rfl⟩ := hedit.to_nil
    exact ⟨1, Nat.le_refl 1, .delete c .nil⟩
  | @keep a b n c h ih =>
    rcases hedit.of_snoc with ⟨a₀, rfl, hbefore⟩ | rfl | ⟨d, rfl⟩ | ⟨d, rfl⟩
    · obtain ⟨k, hk, hrest⟩ := ih hbefore
      exact ⟨k, hk, hrest.keep c⟩
    · exact ⟨n + 1, Nat.le_refl _, h.insert c⟩
    · exact ⟨n + 1, Nat.le_refl _, h.substitute d c⟩
    · exact ⟨n + 1, Nat.le_refl _, (h.keep c).delete d⟩
  | @insert a b n c _ ih =>
    obtain ⟨k, hk, hrest⟩ := ih hedit
    exact ⟨k + 1, Nat.succ_le_succ hk, hrest.insert c⟩
  | @delete a b n c h ih =>
    rcases hedit.of_snoc with ⟨a₀, rfl, hbefore⟩ | rfl | ⟨d, rfl⟩ | ⟨d, rfl⟩
    · obtain ⟨k, hk, hrest⟩ := ih hbefore
      exact ⟨k + 1, Nat.succ_le_succ hk, hrest.delete c⟩
    · exact ⟨n, by omega, h⟩
    · exact ⟨n + 1, by omega, h.delete d⟩
    · exact ⟨n + 2, Nat.le_refl _, (h.delete c).delete d⟩
  | @substitute a b n c e h ih =>
    rcases hedit.of_snoc with ⟨a₀, rfl, hbefore⟩ | rfl | ⟨d, rfl⟩ | ⟨d, rfl⟩
    · obtain ⟨k, hk, hrest⟩ := ih hbefore
      exact ⟨k + 1, Nat.succ_le_succ hk, hrest.substitute c e⟩
    · exact ⟨n + 1, by omega, h.insert e⟩
    · exact ⟨n + 1, by omega, h.substitute d e⟩
    · exact ⟨n + 2, Nat.le_refl _, (h.substitute c e).delete d⟩

end Aligns

theorem Edits.aligns {n : Nat} {a b : Text} (h : Edits n a b) : ∃ k ≤ n, Aligns a b k := by
  induction h with
  | refl a => exact ⟨0, Nat.le_refl 0, .refl a⟩
  | step hedit _ ih =>
    obtain ⟨k, hk, halign⟩ := ih
    obtain ⟨j, hj, halign'⟩ := halign.edit_cons hedit
    exact ⟨j, by omega, halign'⟩

def Least (a b : Text) (d : Nat) : Prop :=
  IsLeast {n | Aligns a b n} d

namespace Least

variable {a b : Text} {x c : UInt8} {d : Nat}

theorem edits (h : Least a b d) : IsLeast {n | Edits n a b} d := by
  refine ⟨h.1.edits, fun n hn => ?_⟩
  obtain ⟨k, hk, halign⟩ := Edits.aligns hn
  exact Nat.le_trans (h.2 halign) hk

theorem nil_right (a : Text) : Least a [] a.length := by
  refine ⟨?_, fun n hn => ?_⟩
  · induction a using List.reverseRecOn with
    | nil => exact Aligns.nil
    | append_singleton a x ih =>
      rw [List.length_append]
      exact ih.delete x
  · have hlength := (Aligns.length_le hn).1
    rwa [List.length_nil, Nat.zero_add] at hlength

theorem nil_left (b : Text) : Least [] b b.length := by
  refine ⟨?_, fun n hn => ?_⟩
  · induction b using List.reverseRecOn with
    | nil => exact Aligns.nil
    | append_singleton b c ih =>
      rw [List.length_append]
      exact ih.insert c
  · have hlength := (Aligns.length_le hn).2
    rwa [List.length_nil, Nat.zero_add] at hlength

theorem snoc_snoc {left up diagonal : Nat} (hleft : Least a (b ++ [c]) left)
    (hup : Least (a ++ [x]) b up) (hdiagonal : Least a b diagonal) :
    Least (a ++ [x]) (b ++ [c])
      (min (min (left + 1) (up + 1)) (if x = c then diagonal else diagonal + 1)) := by
  constructor
  · have hlast : Aligns (a ++ [x]) (b ++ [c]) (if x = c then diagonal else diagonal + 1) := by
      split
      next hx => exact hx ▸ hdiagonal.1.keep x
      · exact hdiagonal.1.substitute x c
    generalize (if x = c then diagonal else diagonal + 1) = across at hlast
    have hchoice : min (min (left + 1) (up + 1)) across = left + 1 ∨
        min (min (left + 1) (up + 1)) across = up + 1 ∨
        min (min (left + 1) (up + 1)) across = across := by omega
    change Aligns _ _ _
    rcases hchoice with h | h | h
    · rw [h]
      exact hleft.1.delete x
    · rw [h]
      exact hup.1.insert c
    · rwa [h]
  · intro n hn
    rcases Aligns.of_snoc_snoc hn with ⟨hx, hn⟩ | ⟨k, rfl, hk | hk | hk⟩
    · have hle := hdiagonal.2 hn
      rw [if_pos hx]
      omega
    · have hle := hdiagonal.2 hk
      split <;> omega
    · have hle := hleft.2 hk
      omega
    · have hle := hup.2 hk
      omega

end Least

/-- One row of the distance table, made from the row `above` it. `diagonal` is the entry of that row
left of the first of them, and `left` the entry just made. -/
def distanceRow (c : UInt8) (left diagonal : Nat) : Text → List Nat → List Nat
  | a :: as, up :: above =>
    let entry := min (min (left + 1) (up + 1)) (if a = c then diagonal else diagonal + 1)
    entry :: distanceRow c entry up as above
  | _, _ => []

inductive Measures (b : Text) : (before after : Text) → List Nat → Prop where
  | nil {before : Text} : Measures b before [] []
  | cons {before after : Text} {x : UInt8} {d : Nat} {row : List Nat} : Least (before ++ [x]) b d →
      Measures b (before ++ [x]) after row → Measures b before (x :: after) (d :: row)

namespace Measures

variable {b before after : Text} {row : List Nat} {d : Nat}

theorem next (h : Measures b before after row) (c : UInt8) {left diagonal : Nat}
    (hleft : Least before (b ++ [c]) left) (hdiagonal : Least before b diagonal) :
    Measures (b ++ [c]) before after (distanceRow c left diagonal after row) := by
  induction h generalizing left diagonal with
  | nil => exact .nil
  | cons hup _ ih =>
    have hentry := hleft.snoc_snoc hup hdiagonal
    exact .cons hentry (ih hentry hup)

theorem first (before after : Text) :
    Measures [] before after (List.range' (before.length + 1) after.length) := by
  induction after generalizing before with
  | nil => exact .nil
  | cons x after ih =>
    have hentry := Least.nil_right (before ++ [x])
    have hrest := ih (before ++ [x])
    rw [List.length_append, List.length_singleton] at hentry hrest
    rw [List.length_cons, List.range'_succ]
    exact .cons hentry hrest

theorem last (h : Measures b before after row) (hd : Least before b d) :
    Least (before ++ after) b (row.getLastD d) := by
  induction h generalizing d with
  | nil => rwa [List.append_nil]
  | @cons before after x e row he _ ih =>
    rw [List.getLastD_cons, List.append_cons]
    exact ih he

theorem length_eq (h : Measures b before after row) : row.length = after.length := by
  induction h with
  | nil => rfl
  | cons _ _ ih => rw [List.length_cons, List.length_cons, ih]

end Measures

theorem getD_of_toList {xs : Array Nat} {pre rest : List Nat} {x : Nat}
    (h : xs.toList = pre ++ x :: rest) : xs.getD pre.length 0 = x := by
  rw [Array.getD_eq_getD_getElem?, ← Array.getElem?_toList, h,
    List.getElem?_append_right (Nat.le_refl _), Nat.sub_self]
  rfl

theorem getD_last_of_toList {xs : Array Nat} {x : Nat} {rest : List Nat}
    (h : xs.toList = x :: rest) : xs.getD rest.length 0 = rest.getLastD x := by
  rcases List.eq_nil_or_concat rest with rfl | ⟨l, y, rfl⟩
  · exact getD_of_toList (show xs.toList = [] ++ [x] from h)
  · rw [List.concat_eq_append, ← List.cons_append] at h
    simpa using getD_of_toList h

namespace Rows

variable {a b₀ : Text} {c : UInt8} {previous current : Array Nat}

theorem fillEntry_toList {x : UInt8} {pre made ups stale : List Nat} {diagonal up left old : Nat}
    (hprevious : previous.toList = pre ++ diagonal :: up :: ups)
    (hcurrent : current.toList = made ++ left :: old :: stale) (hmade : made.length = pre.length) :
    (fillEntry c previous current x pre.length).toList = made ++ left ::
      min (min (left + 1) (up + 1)) (if x = c then diagonal else diagonal + 1) :: stale := by
  have hleft : current.getD pre.length 0 = left := hmade ▸ getD_of_toList hcurrent
  have hup : previous.getD (pre.length + 1) 0 = up := by
    rw [List.append_cons] at hprevious
    simpa using getD_of_toList hprevious
  have hcost : diagonal + (if x = c then 0 else 1) = if x = c then diagonal else diagonal + 1 := by
    split <;> rfl
  have hentry : entry previous current pre.length (if x = c then 0 else 1) =
      min (min (left + 1) (up + 1)) (if x = c then diagonal else diagonal + 1) := by
    rw [entry, hleft, hup, getD_of_toList hprevious, hcost]
  rw [fillEntry, hentry, Array.toList_setIfInBounds, hcurrent, ← hmade,
    List.set_append_right _ _ (Nat.le_add_right _ 1), Nat.add_sub_cancel_left]
  rfl

/-- From the entry `left` on, the row is written over its old entries. -/
theorem foldl_fillEntry (after : Text) {pre made ups stale : List Nat} {diagonal left : Nat}
    (hprevious : previous.toList = pre ++ diagonal :: ups)
    (hcurrent : current.toList = made ++ left :: stale) (hmade : made.length = pre.length)
    (hups : ups.length = after.length) (hstale : stale.length = after.length) :
    ((after.zipIdx pre.length).foldl (fun row p => fillEntry c previous row p.1 p.2)
      current).toList = made ++ left :: distanceRow c left diagonal after ups := by
  induction after generalizing current pre made ups stale diagonal left with
  | nil =>
    rw [List.length_nil, List.length_eq_zero_iff] at hstale
    rw [List.zipIdx_nil, List.foldl_nil, hcurrent, hstale, distanceRow.eq_def]
  | cons x after ih =>
    match ups, stale, hups, hstale with
    | up :: ups, old :: stale, hups, hstale =>
      have hentry := fillEntry_toList (c := c) (x := x) hprevious hcurrent hmade
      rw [List.append_cons] at hprevious hentry
      have hrest := ih hprevious hentry (by simp [hmade]) (Nat.succ.inj hups) (Nat.succ.inj hstale)
      rw [List.length_append, List.length_singleton] at hrest
      rw [List.zipIdx_cons, List.foldl_cons, hrest, ← List.append_cons]
      rfl

theorem fill_toList {above stale : List Nat} {first left : Nat}
    (hprevious : previous.toList = first :: above) (hcurrent : current.toList = left :: stale)
    (habove : above.length = a.length) (hstale : stale.length = a.length) :
    (fill a c previous current).toList = left :: distanceRow c left first a above := by
  have hbefore : previous.toList = [] ++ first :: above := hprevious
  have hwritten : current.toList = [] ++ left :: stale := hcurrent
  exact foldl_fillEntry a hbefore hwritten rfl habove hstale

/-- The row that is done holds the distances from the beginnings of one text to the other, and the
row that is written over has the same length. -/
structure Held (a b : Text) (rows : Rows) (row : List Nat) : Prop where
  previous : rows.previous.toList = b.length :: row
  measures : Measures b [] a row
  current : rows.current.size = a.length + 1

theorem Held.advance {rows : Rows} {row : List Nat} (h : Held a b₀ rows row) (c : UInt8) :
    Held a (b₀ ++ [c]) (rows.advance a c b₀.length)
      (distanceRow c (b₀.length + 1) b₀.length a row) := by
  have hleft := Least.nil_left (b₀ ++ [c])
  rw [List.length_append, List.length_singleton] at hleft
  have hsize := h.current
  rw [← Array.length_toList] at hsize
  obtain ⟨old, stale, hcurrent⟩ := List.exists_cons_of_length_eq_add_one hsize
  rw [hcurrent, List.length_cons, Nat.add_right_cancel_iff] at hsize
  refine ⟨?_, h.measures.next c hleft (.nil_left b₀), ?_⟩
  · rw [Rows.advance, List.length_append, List.length_singleton]
    apply fill_toList h.previous _ h.measures.length_eq hsize
    rw [Array.toList_setIfInBounds, hcurrent]
    rfl
  · rw [Rows.advance, ← Array.length_toList, h.previous, List.length_cons, h.measures.length_eq]

theorem Held.foldl {rows : Rows} {row : List Nat} (h : Held a b₀ rows row) (b : Text) :
    ∃ row', Held a (b₀ ++ b)
      ((b.zipIdx b₀.length).foldl (fun rows p => rows.advance a p.1 p.2) rows) row' := by
  induction b generalizing b₀ rows row with
  | nil =>
    rw [List.append_nil]
    exact ⟨row, h⟩
  | cons c b ih =>
    have hrest := ih (h.advance c)
    rwa [List.length_append, List.length_singleton, ← List.append_cons] at hrest

theorem Held.first (a : Text) :
    Held a [] ⟨Array.range (a.length + 1), Array.replicate (a.length + 1) 0⟩
      (List.range' 1 a.length) := by
  refine ⟨?_, .first [] a, Array.size_replicate⟩
  rw [Array.toList_range, List.range_eq_range', List.range'_succ]
  rfl

end Rows

theorem distance_least (a b : Text) : Least a b (distance a b) := by
  rw [distance]
  split
  next ha =>
    rw [List.isEmpty_iff.mp ha]
    exact .nil_left b
  split
  next hb =>
    rw [List.isEmpty_iff.mp hb]
    exact .nil_right a
  · obtain ⟨row, h⟩ := (Rows.Held.first a).foldl b
    have hlast := getD_last_of_toList h.previous
    rw [h.measures.length_eq] at hlast
    exact hlast ▸ h.measures.last (.nil_left b)

/-- The distance is the least number of edits that turn one text into the other. So it is symmetric,
zero between equal texts only, and no longer than the way over a third text. -/
theorem distance_least_edits (a b : Text) :
    IsLeast {n | Edits n a b} (distance a b) ∧ distance a b = distance b a ∧
      (distance a b = 0 ↔ a = b) ∧ ∀ c, distance a c ≤ distance a b + distance b c := by
  have hleast : ∀ a b, IsLeast {n | Edits n a b} (distance a b) := fun a b =>
    (distance_least a b).edits
  have hsymm : ∀ a b, distance a b ≤ distance b a := fun a b =>
    (hleast a b).2 (Edits.symm (hleast b a).1)
  refine ⟨hleast a b, Nat.le_antisymm (hsymm a b) (hsymm b a), ⟨fun h => ?_, ?_⟩, fun c => ?_⟩
  · have hedits : Edits (distance a b) a b := (hleast a b).1
    rw [h] at hedits
    exact Edits.zero_iff.mp hedits
  · rintro rfl
    exact Nat.eq_zero_of_le_zero ((hleast a a).2 (Edits.refl a))
  · exact (hleast a c).2 (Edits.trans (hleast a b).1 (hleast b c).1)

end Stencil.Text
