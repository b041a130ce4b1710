import AgentPlatform.Harness.State

/-!
# Texts and bytes

What the harness does with texts at the level of bytes: lengths, cuts at character boundaries and
lossy decoding. A text is a list of characters here, and a cut counts their bytes.
-/

namespace AgentPlatform.Harness

/-- `u64::saturating_add`. -/
def saturatingAdd (a b : Nat) : Nat := min (a + b) (2 ^ 64 - 1)

/-- `char::is_whitespace`: the Unicode property White_Space. -/
def isWhitespace (c : Char) : Bool :=
  let n := c.toNat
  (9 ≤ n && n ≤ 13) || n == 0x20 || n == 0x85 || n == 0xa0 || n == 0x1680 ||
    (0x2000 ≤ n && n ≤ 0x200a) || n == 0x2028 || n == 0x2029 || n == 0x202f || n == 0x205f ||
    n == 0x3000

/-- `text.trim().is_empty()`. -/
def isBlank (text : String) : Bool := text.toList.all isWhitespace

/-! ## Cuts -/

/-- `&text[..floor_char_boundary(text, bytes)]`: the characters that end within the first bytes. -/
def floorPrefix : Nat → List Char → List Char
  | _, [] => []
  | bytes, c :: text =>
    if c.utf8Size ≤ bytes then c :: floorPrefix (bytes - c.utf8Size) text else []

/-- `&text[floor_char_boundary(text, bytes)..]`. -/
def floorSuffix : Nat → List Char → List Char
  | _, [] => []
  | bytes, c :: text =>
    if c.utf8Size ≤ bytes then floorSuffix (bytes - c.utf8Size) text else c :: text

/-- `&text[ceil_char_boundary(text, bytes)..]`: the characters that start at or after the bytes. -/
def ceilSuffix : Nat → List Char → List Char
  | _, [] => []
  | 0, text => text
  | bytes + 1, c :: text => ceilSuffix (bytes + 1 - c.utf8Size) text

/-- `str::len`. -/
def byteLength (text : List Char) : Nat := (text.map Char.utf8Size).sum

/-! ## Lossy decoding -/

/-- Whether a byte continues a UTF-8 sequence. -/
def isContinuation (b : UInt8) : Bool := 0x80 ≤ b && b ≤ 0xbf

/-- Whether the second byte of a three-byte sequence may follow the first. -/
def followsThree (b₀ b₁ : UInt8) : Bool :=
  if b₀ = 0xe0 then 0xa0 ≤ b₁ && b₁ ≤ 0xbf
  else if b₀ = 0xed then 0x80 ≤ b₁ && b₁ ≤ 0x9f
  else isContinuation b₁

/-- Whether the second byte of a four-byte sequence may follow the first. -/
def followsFour (b₀ b₁ : UInt8) : Bool :=
  if b₀ = 0xf0 then 0x90 ≤ b₁ && b₁ ≤ 0xbf
  else if b₀ = 0xf4 then 0x80 ≤ b₁ && b₁ ≤ 0x8f
  else isContinuation b₁

/-- The six bits that a continuation byte carries. -/
def continuationBits (b : UInt8) : Nat := b.toNat % 64

/-- `String::from_utf8_lossy`: every maximal part of an invalid sequence becomes U+FFFD. -/
def fromUtf8Lossy : List UInt8 → List Char
  | [] => []
  | b₀ :: rest =>
    if b₀ < 0x80 then Char.ofNat b₀.toNat :: fromUtf8Lossy rest
    else if 0xc2 ≤ b₀ && b₀ ≤ 0xdf then
      match rest with
      | b₁ :: rest₁ =>
        if isContinuation b₁ then
          Char.ofNat (b₀.toNat % 32 * 64 + continuationBits b₁) :: fromUtf8Lossy rest₁
        else '\ufffd' :: fromUtf8Lossy (b₁ :: rest₁)
      | [] => ['\ufffd']
    else if 0xe0 ≤ b₀ && b₀ ≤ 0xef then
      match rest with
      | b₁ :: rest₁ =>
        if followsThree b₀ b₁ then
          match rest₁ with
          | b₂ :: rest₂ =>
            if isContinuation b₂ then
              Char.ofNat ((b₀.toNat % 16 * 64 + continuationBits b₁) * 64 + continuationBits b₂) ::
                fromUtf8Lossy rest₂
            else '\ufffd' :: fromUtf8Lossy (b₂ :: rest₂)
          | [] => ['\ufffd']
        else '\ufffd' :: fromUtf8Lossy (b₁ :: rest₁)
      | [] => ['\ufffd']
    else if 0xf0 ≤ b₀ && b₀ ≤ 0xf4 then
      match rest with
      | b₁ :: rest₁ =>
        if followsFour b₀ b₁ then
          match rest₁ with
          | b₂ :: rest₂ =>
            if isContinuation b₂ then
              match rest₂ with
              | b₃ :: rest₃ =>
                if isContinuation b₃ then
                  Char.ofNat (((b₀.toNat % 8 * 64 + continuationBits b₁) * 64 +
                    continuationBits b₂) * 64 + continuationBits b₃) :: fromUtf8Lossy rest₃
                else '\ufffd' :: fromUtf8Lossy (b₃ :: rest₃)
              | [] => ['\ufffd']
            else '\ufffd' :: fromUtf8Lossy (b₂ :: rest₂)
          | [] => ['\ufffd']
        else '\ufffd' :: fromUtf8Lossy (b₁ :: rest₁)
      | [] => ['\ufffd']
    else '\ufffd' :: fromUtf8Lossy rest

theorem fromUtf8Lossy_ascii {b : UInt8} (h : b < 0x80) (rest : List UInt8) :
    fromUtf8Lossy (b :: rest) = Char.ofNat b.toNat :: fromUtf8Lossy rest := by
  rw [fromUtf8Lossy.eq_def]
  dsimp only
  rw [if_pos h]

/-! ## Bounded output -/

/-- `ACCUMULATOR_HALF_BYTES`. -/
def accumulatorHalfBytes : Nat := 24 * 1024

namespace OutputAccumulator

/-- `OutputAccumulator::append`. -/
def append (output : OutputAccumulator) (bytes : List UInt8) : OutputAccumulator :=
  let totalBytes := saturatingAdd output.totalBytes bytes.length
  let text := fromUtf8Lossy bytes
  let head := output.head.toList
  let (head, remainder) :=
    if byteLength head < accumulatorHalfBytes then
      let available := accumulatorHalfBytes - byteLength head
      (head ++ floorPrefix available text, floorSuffix available text)
    else (head, text)
  if remainder.isEmpty then { output with totalBytes, head := String.ofList head }
  else
    let tail := output.tail.toList ++ remainder
    if accumulatorHalfBytes < byteLength tail then
      let kept := ceilSuffix (byteLength tail - accumulatorHalfBytes) tail
      { head := String.ofList head
        tail := String.ofList kept
        totalBytes
        omittedBytes := saturatingAdd output.omittedBytes (byteLength tail - byteLength kept) }
    else { output with totalBytes, head := String.ofList head, tail := String.ofList tail }

/-- `OutputAccumulator::model_text`. -/
def modelText (output : OutputAccumulator) (maxTokens : Nat) : String :=
  let text :=
    if output.omittedBytes = 0 then output.head.toList ++ output.tail.toList
    else
      (output.head ++ "\n... " ++ toString output.omittedBytes ++ " bytes omitted ...\n" ++
        output.tail).toList
  let budget := min (maxTokens * 4) (2 ^ 64 - 1)
  if byteLength text ≤ budget then String.ofList text
  else if budget = 0 then ""
  else
    let marker := ("\n... model output truncated (original token count: " ++
      toString ((output.totalBytes + 3) / 4) ++ ") ...\n").toList
    if budget ≤ byteLength marker then String.ofList (floorPrefix budget text)
    else
      let remaining := budget - byteLength marker
      let head := floorPrefix (remaining / 2) text
      let tail := ceilSuffix (byteLength text - (remaining - byteLength head)) text
      String.ofList (head ++ marker ++ tail)

end OutputAccumulator

end AgentPlatform.Harness
