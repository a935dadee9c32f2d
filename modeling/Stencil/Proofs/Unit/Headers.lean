import Stencil.Proofs.Text.Split
import Stencil.Template.Name
import Stencil.Unit.Component

namespace Stencil

open Ascii Text

structure Header where
  name : Text
  params : List Text
  result : Text
  deriving DecidableEq

namespace Header

def depthAfter (depth : Nat) (b : UInt8) : Nat :=
  if b = openParen then depth + 1 else if b = closeParen then depth - 1 else depth

def untilClose : (depth : Nat) → Text → Option (Text × Text)
  | _, [] => none
  | depth, b :: s =>
    if depth = 0 && b = closeParen then some ([], s)
    else (untilClose (depthAfter depth b) s).map fun p => (b :: p.1, p.2)

def splitTop : (depth : Nat) → Text → List Text
  | _, [] => [[]]
  | depth, b :: s =>
    if depth = 0 && b = comma then [] :: splitTop 0 s
    else match splitTop (depthAfter depth b) s with
      | piece :: more => (b :: piece) :: more
      | [] => [[b]]

def isParamName (s : Text) : Bool :=
  s.all (fun b => isAlphanumeric b || b = underscore) && !Name.keywords.contains s

def paramType (s : Text) : Text :=
  match s.dropWhile (· != space) with
  | _ :: type => if isParamName (s.takeWhile (· != space)) then type else s
  | [] => s

def paramTypes (s : Text) : List Text :=
  if s.isEmpty then [] else (splitTop 0 s).map fun piece => paramType (piece.dropWhile (· == space))

def ofMember? (s : Text) : Option Header :=
  match s.dropWhile (· != openParen) with
  | _ :: rest => (untilClose 0 rest).map fun p =>
    ⟨s.takeWhile (· != openParen), paramTypes p.1, p.2.dropWhile (· == space)⟩
  | [] => none

def ofDeclaration? (typeName s : Text) : Option Header := do
  let rest ← cutPrefix? (utf8 "func (") s
  let (receiver, rest) ← untilClose 0 rest
  if paramType receiver = utf8 "*" ++ typeName then
    let rest ← cutPrefix? (utf8 " ") rest
    ofMember? (← cutSuffix? (utf8 " \x7b") rest)
  else none

inductive Balanced : Text → Prop where
  | nil : Balanced []
  | byte {b : UInt8} : b ≠ openParen → b ≠ closeParen → Balanced [b]
  | append {s t : Text} : Balanced s → Balanced t → Balanced (s ++ t)
  | group {s : Text} : Balanced s → Balanced (openParen :: (s ++ [closeParen]))

theorem balanced_of_forall {s : Text} (h : ∀ b ∈ s, b ≠ openParen ∧ b ≠ closeParen) :
    Balanced s := by
  induction s with
  | nil => exact .nil
  | cons b s ih =>
    obtain ⟨hb, hs⟩ := List.forall_mem_cons.mp h
    exact (Balanced.byte hb.1 hb.2).append (ih hs)

theorem balanced_of_not_mem {s : Text} (hopen : openParen ∉ s) (hclose : closeParen ∉ s) :
    Balanced s :=
  balanced_of_forall fun _ hb => ⟨ne_of_mem_of_not_mem hb hopen, ne_of_mem_of_not_mem hb hclose⟩

theorem untilClose_balanced {s : Text} (h : Balanced s) (depth : Nat) (rest : Text) :
    untilClose depth (s ++ rest) = (untilClose depth rest).map fun p => (s ++ p.1, p.2) := by
  induction h generalizing depth rest with
  | nil => simp
  | @byte b hopen hclose =>
    rw [List.singleton_append, untilClose, if_neg (by simp [hclose]), depthAfter, if_neg hopen,
      if_neg hclose]
    rfl
  | append _ _ ihs iht =>
    rw [List.append_assoc, ihs, iht, Option.map_map]
    simp [Function.comp_def]
  | group _ ih =>
    have hne : ¬ openParen = closeParen := by decide
    have hopen : depthAfter depth openParen = depth + 1 := rfl
    have hclose : depthAfter (depth + 1) closeParen = depth := rfl
    rw [List.cons_append, List.append_assoc, untilClose, if_neg (by simp [hne]), hopen, ih,
      List.singleton_append, untilClose, if_neg (by simp), hclose, Option.map_map, Option.map_map]
    simp [Function.comp_def]

theorem untilClose_close (s : Text) : untilClose 0 (closeParen :: s) = some ([], s) := by
  rw [untilClose, if_pos (by simp)]

theorem splitTop_of_not_mem {s : Text} (h : comma ∉ s) (depth : Nat) : splitTop depth s = [s] := by
  induction s generalizing depth with
  | nil => rfl
  | cons b s ih =>
    rw [List.mem_cons, not_or] at h
    have hb : ¬ b = comma := Ne.symm h.1
    rw [splitTop, if_neg (by simp [hb]), ih h.2]

theorem takeWhile_dropWhile_ne {sep : UInt8} {s : Text} (h : sep ∉ s) (rest : Text) :
    (s ++ sep :: rest).takeWhile (· != sep) = s ∧
      (s ++ sep :: rest).dropWhile (· != sep) = sep :: rest := by
  have hs : ∀ b ∈ s, (b != sep) = true := fun b hb => bne_iff_ne.mpr fun he => h (he ▸ hb)
  constructor
  · rw [List.takeWhile_append_of_pos hs, List.takeWhile_cons_of_neg (by simp), List.append_nil]
  · rw [List.dropWhile_append_of_pos hs, List.dropWhile_cons_of_neg (by simp)]

theorem ofMember?_eq {name params tail : Text} (hname : openParen ∉ name)
    (hparams : Balanced params) :
    ofMember? (name ++ openParen :: (params ++ closeParen :: tail)) =
      some ⟨name, paramTypes params, tail.dropWhile (· == space)⟩ := by
  obtain ⟨htake, hdrop⟩ := takeWhile_dropWhile_ne hname (params ++ closeParen :: tail)
  rw [ofMember?, htake, hdrop]
  dsimp only
  rw [untilClose_balanced hparams, untilClose_close]
  simp

theorem paramType_named {name type : Text} (hspace : space ∉ name)
    (hname : isParamName name = true) :
    paramType (name ++ space :: type) = type := by
  obtain ⟨htake, hdrop⟩ := takeWhile_dropWhile_ne hspace type
  rw [paramType, htake, hdrop]
  exact if_pos hname

theorem ofDeclaration?_eq {typeName : Text} (htype : ∀ b ∈ typeName, b ≠ openParen ∧ b ≠ closeParen)
    (member : Text) :
    ofDeclaration? typeName (utf8 "func (s *" ++ typeName ++ utf8 ") " ++ member ++ utf8 " \x7b") =
      ofMember? member := by
  have hline : utf8 "func (s *" ++ typeName ++ utf8 ") " ++ member ++ utf8 " \x7b" =
      utf8 "func (" ++ (utf8 "s *" ++ typeName ++ closeParen :: (utf8 " " ++
        (member ++ utf8 " \x7b"))) := by
    simp only [List.append_assoc]
    rfl
  have hreceiver : Balanced (utf8 "s *" ++ typeName) :=
    (balanced_of_not_mem (by decide) (by decide)).append (balanced_of_forall htype)
  have hparam : paramType (utf8 "s *" ++ typeName) = utf8 "*" ++ typeName :=
    @paramType_named (utf8 "s") (utf8 "*" ++ typeName) (by decide) (by decide)
  rw [hline, ofDeclaration?, cutPrefix?_eq_some_iff.mpr rfl]
  simp only [Option.bind_eq_bind, Option.bind_some]
  rw [untilClose_balanced hreceiver, untilClose_close]
  simp only [Option.map_some, Option.bind_some, List.append_nil, hparam, if_true,
    cutPrefix?_eq_some_iff.mpr rfl, cutSuffix?_eq_some_iff.mpr rfl]

theorem dropWhile_space {s : Text} (h : s.head? ≠ some space) : s.dropWhile (· == space) = s := by
  cases s with
  | nil => rfl
  | cons b s =>
    rw [List.dropWhile_cons, if_neg (by simpa using h)]

theorem paramTypes_single {s : Text} (hne : s ≠ []) (hcomma : comma ∉ s)
    (hspace : s.head? ≠ some space) : paramTypes s = [paramType s] := by
  rw [paramTypes, if_neg (by simpa using hne), splitTop_of_not_mem hcomma]
  simp [dropWhile_space hspace]

end Header

namespace Signature

def header (s : Signature) : Header :=
  ⟨s.name, s.params.map Prod.snd, s.result⟩

/-- There is at most one parameter, and nothing in the signature can be taken for a mark between its
parts. -/
structure Readable (s : Signature) : Prop where
  name : openParen ∉ s.name
  params : s.params = [] ∨ ∃ v type, s.params = [(v, type)] ∧ v ≠ [] ∧ space ∉ v ∧
    Header.isParamName v = true ∧ Header.Balanced (v ++ space :: type) ∧ comma ∉ v ++ space :: type
  result : s.result.head? ≠ some space

theorem Readable.dropWhile_resultText {s : Signature} (h : s.Readable) :
    s.resultText.dropWhile (· == space) = s.result := by
  unfold resultText
  split
  next hempty => rw [List.isEmpty_iff.mp hempty]; rfl
  next => rw [List.dropWhile_cons, if_pos (by simp), Header.dropWhile_space h.result]

theorem Readable.ofDeclaration?_opening {s : Signature} (h : s.Readable) {typeName : Text}
    (htype : ∀ b ∈ typeName, b ≠ openParen ∧ b ≠ closeParen) :
    Header.ofDeclaration? typeName (s.opening typeName) = some s.header := by
  have hopening (params : Text) :
      utf8 "func (s *" ++ typeName ++ utf8 ") " ++ s.name ++ utf8 "(" ++ params ++ utf8 ")" ++
          s.resultText ++ utf8 " \x7b" =
        utf8 "func (s *" ++ typeName ++ utf8 ") " ++
          (s.name ++ openParen :: (params ++ closeParen :: s.resultText)) ++ utf8 " \x7b" := by
    simp only [List.append_assoc, List.cons_append]
    rfl
  unfold opening
  dsimp only
  rw [hopening, Header.ofDeclaration?_eq htype]
  obtain hnone | ⟨v, type, hparams, hne, hspace, hname, hbalanced, hcomma⟩ := h.params
  · have hjoin : joinWith (utf8 ", ") (s.params.map fun p => p.1 ++ [space] ++ p.2) = [] := by
      rw [hnone]
      rfl
    rw [hjoin, Header.ofMember?_eq h.name .nil, h.dropWhile_resultText, header, hnone]
    rfl
  · have hhead : (v ++ space :: type).head? ≠ some space := by
      cases v with
      | nil => exact absurd rfl hne
      | cons b v => exact fun he => hspace (Option.some.inj he ▸ List.mem_cons_self)
    have hjoin : joinWith (utf8 ", ") (s.params.map fun p => p.1 ++ [space] ++ p.2) =
        v ++ space :: type := by simp [hparams, joinWith]
    rw [hjoin, Header.ofMember?_eq h.name hbalanced, h.dropWhile_resultText,
      Header.paramTypes_single (by simp) hcomma hhead, Header.paramType_named hspace hname, header,
      hparams]
    rfl

end Signature

end Stencil
