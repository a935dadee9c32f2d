import Stencil.Text.Basic

namespace Stencil.Digest

abbrev Words := Array UInt64

def initial : Words :=
  #[0x6a09e667f3bcc908, 0xbb67ae8584caa73b, 0x3c6ef372fe94f82b, 0xa54ff53a5f1d36f1,
    0x510e527fade682d1, 0x9b05688c2b3e6c1f, 0x1f83d9abfb41bd6b, 0x5be0cd19137e2179]

def schedule : List (List Nat) :=
  [[0, 1, 2, 3, 4, 5, 6, 7, 8, 9, 10, 11, 12, 13, 14, 15],
    [14, 10, 4, 8, 9, 15, 13, 6, 1, 12, 0, 2, 11, 7, 5, 3],
    [11, 8, 12, 0, 5, 2, 15, 13, 10, 14, 3, 6, 7, 1, 9, 4],
    [7, 9, 3, 1, 13, 12, 11, 14, 2, 6, 5, 10, 4, 0, 15, 8],
    [9, 0, 5, 7, 2, 4, 10, 15, 14, 1, 11, 12, 6, 8, 3, 13],
    [2, 12, 6, 10, 0, 11, 8, 3, 4, 13, 7, 5, 15, 14, 1, 9],
    [12, 5, 1, 15, 14, 13, 4, 10, 0, 7, 6, 3, 9, 2, 8, 11],
    [13, 11, 7, 14, 12, 1, 3, 9, 5, 0, 15, 4, 8, 6, 2, 10],
    [6, 15, 14, 9, 11, 3, 0, 8, 12, 2, 13, 7, 1, 4, 10, 5],
    [10, 2, 8, 4, 7, 6, 1, 5, 15, 11, 9, 14, 3, 12, 13, 0]]

def rounds : List (List Nat) :=
  schedule ++ schedule.take 2

def lanes : List (Nat × Nat × Nat × Nat) :=
  [(0, 4, 8, 12), (1, 5, 9, 13), (2, 6, 10, 14), (3, 7, 11, 15),
    (0, 5, 10, 15), (1, 6, 11, 12), (2, 7, 8, 13), (3, 4, 9, 14)]

def rotateRight (x : UInt64) (n : UInt64) : UInt64 :=
  (x >>> n) ||| (x <<< (64 - n))

def mix (v : Words) (lane : Nat × Nat × Nat × Nat) (x y : UInt64) : Words :=
  let (ia, ib, ic, id) := lane
  let a := v.getD ia 0 + v.getD ib 0 + x
  let d := rotateRight (v.getD id 0 ^^^ a) 32
  let c := v.getD ic 0 + d
  let b := rotateRight (v.getD ib 0 ^^^ c) 24
  let a := a + b + y
  let d := rotateRight (d ^^^ a) 16
  let c := c + d
  let b := rotateRight (b ^^^ c) 63
  (((v.setIfInBounds ia a).setIfInBounds ib b).setIfInBounds ic c).setIfInBounds id d

def pairs : List Nat → List (Nat × Nat)
  | a :: b :: rest => (a, b) :: pairs rest
  | _ => []

def round (block : Words) (v : Words) (order : List Nat) : Words :=
  (lanes.zip (pairs order)).foldl
    (fun v (lane, i, j) => mix v lane (block.getD i 0) (block.getD j 0)) v

def littleEndian (bytes : Text) : Nat :=
  bytes.foldr (fun b n => n * 256 + b.toNat) 0

def wordsOf (block : Text) : Words :=
  ((List.range 16).map fun i => UInt64.ofNat (littleEndian ((block.drop (8 * i)).take 8))).toArray

def compress (h : Words) (block : Text) (count : Nat) (last : Bool) : Words :=
  let tail := #[initial.getD 0 0, initial.getD 1 0, initial.getD 2 0, initial.getD 3 0,
    initial.getD 4 0 ^^^ UInt64.ofNat count, initial.getD 5 0 ^^^ UInt64.ofNat (count / 0x10000000000000000),
    if last then initial.getD 6 0 ^^^ 0xffffffffffffffff else initial.getD 6 0, initial.getD 7 0]
  let v := rounds.foldl (round (wordsOf block)) (h ++ tail)
  ((List.range 8).map fun i => h.getD i 0 ^^^ v.getD i 0 ^^^ v.getD (i + 8) 0).toArray

def absorb (h : Words) (count : Nat) (message : Text) : Words :=
  if message.length ≤ 128 then compress h message (count + message.length) true
  else absorb (compress h (message.take 128) (count + 128) false) (count + 128) (message.drop 128)
termination_by message.length
decreasing_by simp only [List.length_drop]; omega

def bytesOf (w : UInt64) : Text :=
  (List.range 8).map fun i => UInt8.ofNat (w.toNat / Nat.pow 256 i % 256)

def ofText (message : Text) : Text :=
  let start := initial.setIfInBounds 0 (initial.getD 0 0 ^^^ 0x01010020)
  ((absorb start 0 message).toList.take 4).flatMap bytesOf

def hex (s : Text) : Text :=
  s.flatMap fun b => [Ascii.hexDigit (b.toNat / 16), Ascii.hexDigit (b.toNat % 16)]

end Stencil.Digest
