import FileShell.Text.Symbol

/-!
# Texts as bytes

File names and file contents are bytes, texts are symbols.  Bytes are read as UTF-8; a byte that
belongs to no well-formed sequence becomes one of the surrogates `U+DC80` to `U+DCFF`, so that
every byte string is the encoding of the text it was read as.  The other surrogates have no
encoding: a text that contains one is *unencodable*.

Both directions go through `pieces`, which cuts a byte string into well-formed sequences and
broken remains; `FileShell.Text.Utf8Laws` holds the laws.
-/

namespace FileShell

/-- A byte string: a file's content, a file's name, a link's target. -/
abbrev Bytes := List UInt8

/-! ## Encoding -/

/-- The UTF-8 form of a scalar value. -/
def utf8 (c : Char) : Bytes :=
  let n := c.toNat
  if n < 0x80 then [.ofNat n]
  else if n < 0x800 then [.ofNat (0xC0 + n / 0x40), .ofNat (0x80 + n % 0x40)]
  else if n < 0x10000 then
    [.ofNat (0xE0 + n / 0x1000), .ofNat (0x80 + n / 0x40 % 0x40), .ofNat (0x80 + n % 0x40)]
  else
    [.ofNat (0xF0 + n / 0x40000), .ofNat (0x80 + n / 0x1000 % 0x40),
      .ofNat (0x80 + n / 0x40 % 0x40), .ofNat (0x80 + n % 0x40)]

namespace Symbol

/-- The symbol that keeps a byte which is part of no well-formed sequence. -/
def ofByte (b : UInt8) : Symbol :=
  surrogate ⟨0x400 + b.toNat, by have := UInt8.toNat_lt b; omega⟩

/-- Is it a surrogate? -/
def isSurrogate : Symbol → Bool
  | scalar _ => false
  | surrogate _ => true

/-- The bytes of a symbol; a surrogate has one only when it keeps a byte from 0x80 on. -/
def bytes? : Symbol → Option Bytes
  | scalar c => some (utf8 c)
  | surrogate k => if 0x480 ≤ k.val ∧ k.val < 0x500 then some [.ofNat (k.val - 0x400)] else none

theorem bytes?_ofByte {b : UInt8} (h : 0x80 ≤ b.toNat) : (ofByte b).bytes? = some [b] := by
  have hb := UInt8.toNat_lt b
  have h1 : 0x480 ≤ 0x400 + b.toNat ∧ 0x400 + b.toNat < 0x500 := by omega
  have h2 : UInt8.ofNat (0x400 + b.toNat - 0x400) = b := by
    rw [Nat.add_sub_cancel_left, UInt8.ofNat_toNat]
  simp only [ofByte, bytes?, h1, and_self, if_true, h2]

end Symbol

/-- Why a text has no encoding: the first symbol without one, its position, and the position of
the last surrogate in the unbroken run that starts there. -/
structure Unencodable where
  symbol : Symbol
  first : Nat
  last : Nat
deriving DecidableEq, Repr

namespace Text

/-- A number in base sixteen, in lower case, with at least `width` digits. -/
def hex (width n : Nat) : Text :=
  let digits := Nat.toDigits 16 n
  ofString (String.ofList (List.replicate (width - digits.length) '0' ++ digits))

/-- A number in base ten. -/
def decimal (n : Nat) : Text := ofString n.repr

/-- The encoding of a text whose first symbol stands at position `i`. -/
def encodeFrom (i : Nat) : Text → Except Unencodable Bytes
  | [] => .ok []
  | s :: rest =>
    match s.bytes? with
    | none => .error ⟨s, i, i + (rest.takeWhile Symbol.isSurrogate).length⟩
    | some bytes =>
      match encodeFrom (i + 1) rest with
      | .ok more => .ok (bytes ++ more)
      | .error e => .error e

/-- The encoding of a text, or where it has none. -/
def encode (t : Text) : Except Unencodable Bytes := encodeFrom 0 t

end Text

/-- What is reported about an unencodable text. -/
def Unencodable.message (e : Unencodable) : Text :=
  "'utf-8' codec can't encode character" ++
    (if e.first = e.last then " '\\u" ++ Text.hex 4 e.symbol.codePoint ++ "' in position "
        ++ Text.decimal e.first
      else "s in position " ++ Text.decimal e.first ++ "-" ++ Text.decimal e.last)
    ++ ": surrogates not allowed"

/-! ## Reading bytes as pieces -/

/-- A piece of a byte string: a scalar value in UTF-8, or bytes that begin no well-formed
sequence and are as many as could have begun one. -/
inductive Piece where
  | scalar (c : Char)
  | broken (bytes : Bytes)
deriving DecidableEq, Repr

/-- The bytes of a piece. -/
def Piece.bytes : Piece → Bytes
  | scalar c => utf8 c
  | broken b => b

/-- For a byte that starts a sequence of several: how many bytes follow, and the least and the
greatest value of the next one.  These limits rule out overlong forms, surrogates and numbers
above `U+10FFFF`. -/
def followers? (a : Nat) : Option (Nat × Nat × Nat) :=
  if a < 0xC2 then none
  else if a < 0xE0 then some (1, 0x80, 0xBF)
  else if a = 0xE0 then some (2, 0xA0, 0xBF)
  else if a = 0xED then some (2, 0x80, 0x9F)
  else if a < 0xF0 then some (2, 0x80, 0xBF)
  else if a = 0xF0 then some (3, 0x90, 0xBF)
  else if a < 0xF4 then some (3, 0x80, 0xBF)
  else if a = 0xF4 then some (3, 0x80, 0x8F)
  else none

/-- Up to `k` bytes that may follow, the first within the given limits. -/
def takeFollowers : Nat → Nat → Nat → Bytes → Bytes
  | k + 1, low, high, b :: rest =>
    if low ≤ b.toNat ∧ b.toNat ≤ high then b :: takeFollowers k 0x80 0xBF rest else []
  | _, _, _, _ => []

/-- The number that a leading byte with its followers stands for. -/
def sequenceValue (a : UInt8) (followers : Bytes) : Nat :=
  followers.foldl (fun n b => n * 0x40 + b.toNat % 0x40)
    (if a.toNat < 0xE0 then a.toNat % 0x20 else if a.toNat < 0xF0 then a.toNat % 0x10
      else a.toNat % 8)

/-- The piece with which the bytes `a :: rest` start. -/
def firstPiece (a : UInt8) (rest : Bytes) : Piece :=
  if a.toNat < 0x80 then .scalar (Char.ofNat a.toNat)
  else match followers? a.toNat with
    | none => .broken [a]
    | some (k, low, high) =>
      let more := takeFollowers k low high rest
      if more.length = k then .scalar (Char.ofNat (sequenceValue a more)) else .broken (a :: more)

/-- The pieces of the bytes that remain when the first `skip` are passed over. -/
def piecesAfter : Nat → Bytes → List Piece
  | _, [] => []
  | skip + 1, _ :: rest => piecesAfter skip rest
  | 0, a :: rest =>
    let p := firstPiece a rest
    p :: piecesAfter (p.bytes.length - 1) rest

/-- The pieces of a byte string from left to right. -/
def pieces (b : Bytes) : List Piece := piecesAfter 0 b

namespace Text

/-- The text that a byte string is read as: broken bytes are kept one by one. -/
def decode (b : Bytes) : Text :=
  (pieces b).flatMap fun
    | .scalar c => [.scalar c]
    | .broken bytes => bytes.map Symbol.ofByte

/-- The text that a byte string is shown as: each broken piece becomes one `U+FFFD`. -/
def display (b : Bytes) : Text :=
  (pieces b).map fun
    | .scalar c => .scalar c
    | .broken _ => .scalar '\uFFFD'

/-- The text of a byte string that is UTF-8 throughout. -/
def decodeStrict? (b : Bytes) : Option Text :=
  (pieces b).mapM fun
    | .scalar c => some (.scalar c)
    | .broken _ => none

end Text

end FileShell
