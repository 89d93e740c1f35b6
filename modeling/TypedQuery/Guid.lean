import TypedQuery.Numeral

/-!
# Unique identifiers

A unique identifier is a number of 128 bits, written as 32 hexadecimal digits in
five groups.
-/

namespace TypedQuery

/-- A number of 128 bits. -/
structure Guid where
  bits : BitVec 128
deriving DecidableEq

namespace Guid

/-- The order of the numbers. -/
def compare (a b : Guid) : Ordering :=
  Ord.compare a.bits.toNat b.bits.toNat

/-- The 32 hexadecimal digits. -/
def hexDigits (g : Guid) : List Char :=
  let digits := Nat.toDigits 16 g.bits.toNat
  List.replicate (32 - digits.length) '0' ++ digits

/-- Five groups of lower-case digits with hyphens between them. -/
def text (g : Guid) : String :=
  let digits := g.hexDigits
  String.ofList (digits.take 8 ++ '-' :: (digits.drop 8).take 4 ++ '-' :: (digits.drop 12).take 4 ++
    '-' :: (digits.drop 16).take 4 ++ '-' :: digits.drop 20)

/-- The value of a hexadecimal digit. -/
def hexValue? (c : Char) : Option Nat :=
  if c.isDigit then some (digitValue c)
  else if 'a' ≤ c ∧ c ≤ 'f' then some (c.toNat - 'a'.toNat + 10)
  else if 'A' ≤ c ∧ c ≤ 'F' then some (c.toNat - 'A'.toNat + 10)
  else none

/-- The number written by hexadecimal digits. -/
def ofHex? (digits : List Char) : Option Nat :=
  digits.foldlM (fun n c => (hexValue? c).map (n * 16 + ·)) 0

/-- Why a text is not an identifier. -/
inductive ReadFault
  | character (c : Char) (index : Nat)
  | length (found : Nat)
  | groupCount (found : Nat)
  | groupLength (group found : Nat)
deriving DecidableEq

/-- The number of digits of each group. -/
def groupLengths : List Nat := [8, 4, 4, 4, 12]

/-- The index of the first digit of each group. -/
def groupStarts : List Nat := [0, 9, 14, 19, 24]

/-- The wording of a fault. -/
def ReadFault.message : ReadFault → String
  | character c index => "invalid character: found `" ++ toString c ++ "` at " ++ toString index
  | length found => "invalid length: found " ++ toString found
  | groupCount found => "invalid group count: expected 5, found " ++ toString found
  | groupLength group found =>
    "invalid group length in group " ++ toString group ++ ": expected " ++
      toString (groupLengths.getD group 0) ++ ", found " ++ toString found

/-- The length of a text in bytes. -/
def byteLength (text : List Char) : Nat :=
  text.foldr (fun c size => c.utf8Size + size) 0

/-- The first character that is neither a hexadecimal digit nor a hyphen, with its
index in bytes. -/
def badCharacter? (index : Nat) : List Char → Option (Char × Nat)
  | [] => none
  | c :: rest =>
    if c = '-' || (hexValue? c).isSome then badCharacter? (index + c.utf8Size) rest
    else some (c, index)

/-- The indices of the hyphens. -/
def hyphens (text : List Char) : List Nat :=
  (text.zipIdx.filter fun entry => entry.1 = '-').map Prod.snd

/-- The part of a text that is to be an identifier, the index at which it starts
and whether it stands alone: braces and the prefix of resource names are left
out. -/
def inner (text : List Char) : List Char × Nat × Bool :=
  let braced := text.head? = some (Char.ofNat 0x7b) && text.getLast? = some (Char.ofNat 0x7d) &&
    2 ≤ text.length
  if braced then ((text.drop 1).dropLast, 1, false)
  else if "urn:uuid:".toList.isPrefixOf text then (text.drop 9, 9, false)
  else (text, 0, true)

/-- The reason why a text that is not an identifier is none. -/
def faultOf (text : List Char) : ReadFault :=
  let (body, offset, alone) := inner text
  match badCharacter? 0 body with
  | some (c, index) => .character c (index + offset)
  | none =>
    let marks := hyphens body
    if marks.isEmpty && alone then .length (byteLength text)
    else if marks.length ≠ 4 then .groupCount (marks.length + 1)
    else
      let wrong := (List.range 4).find? fun group =>
        marks.getD group 0 ≠ groupStarts.getD (group + 1) 0 - 1
      match wrong with
      | some group => .groupLength group (marks.getD group 0 - groupStarts.getD group 0)
      | none => .groupLength 4 (byteLength text - 24)

/-- Reads five groups of digits with hyphens between them. -/
def readGroups (text : List Char) : Except ReadFault Guid :=
  let hyphened := text.length = 36 && [8, 13, 18, 23].all fun index => text[index]? = some '-'
  let digits := text.take 8 ++ (text.drop 9).take 4 ++ (text.drop 14).take 4 ++
    (text.drop 19).take 4 ++ text.drop 24
  match if hyphened then ofHex? digits else none with
  | some n => .ok ⟨BitVec.ofNat 128 n⟩
  | none => .error (faultOf text)

/-- Reads an identifier: 32 digits, five groups, five groups in braces or five
groups after the prefix of resource names. -/
def read (text : List Char) : Except ReadFault Guid :=
  let size := byteLength text
  let (body, offset, _) := inner text
  if size = 32 then
    match ofHex? text with
    | some n => .ok ⟨BitVec.ofNat 128 n⟩
    | none => .error (faultOf text)
  else if size = 36 then readGroups text
  else if (size = 38 && offset = 1) || (size = 45 && offset = 9) then readGroups body
  else .error (faultOf text)

/-- Reads an identifier, without the reason of a failure. -/
def read? (text : String) : Option Guid :=
  (read text.toList).toOption

/-- The text has the shape of five groups of hexadecimal digits. -/
def isShaped (text : String) : Bool :=
  let chars := text.toList
  chars.length = 36 && chars.zipIdx.all fun (c, index) =>
    if index = 8 || index = 13 || index = 18 || index = 23 then c = '-' else (hexValue? c).isSome

end Guid

end TypedQuery
