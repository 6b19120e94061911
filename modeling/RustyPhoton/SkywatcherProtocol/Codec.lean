import Mathlib.Data.Fintype.Basic

/-!
# The Sky-Watcher wire codec

Values of 24 bits as six hex digits, low byte first, positions under a bias, and the frames of the
outbound commands. A `u32` payload is a natural number, of which the codec keeps the low 24 bits.
-/

namespace RustyPhoton.Skywatcher

inductive ProtocolError where
  | hexError (message : String)
  | frameError (message : String)
  deriving DecidableEq

/-- The upper-case digit of a low nibble. -/
def nibbleToHex (n : ℕ) : UInt8 :=
  let lo := n % 16
  if lo < 10 then .ofNat (48 + lo) else .ofNat (65 + (lo - 10))

/-- A byte as `{:#04x}` prints it. -/
def hexText (b : UInt8) : String :=
  let digits := String.ofList (Nat.toDigits 16 b.toNat)
  "0x" ++ (if digits.length < 2 then "0" ++ digits else digits)

def decodeNibble (b : UInt8) : Except ProtocolError ℕ :=
  if 48 ≤ b ∧ b ≤ 57 then .ok (b.toNat - 48)
  else if 97 ≤ b ∧ b ≤ 102 then .ok (b.toNat - 97 + 10)
  else if 65 ≤ b ∧ b ≤ 70 then .ok (b.toNat - 65 + 10)
  else .error (.hexError ("expected ASCII hex digit, got " ++ hexText b))

/-- The six bytes of a 24-bit payload, in pairs of a high and a low nibble. -/
structure Payload where
  lo : UInt8 × UInt8
  mid : UInt8 × UInt8
  hi : UInt8 × UInt8
  deriving DecidableEq

namespace Payload

def bytes (p : Payload) : List UInt8 := [p.lo.1, p.lo.2, p.mid.1, p.mid.2, p.hi.1, p.hi.2]

end Payload

def encodeU8 (value : ℕ) : UInt8 × UInt8 := (nibbleToHex (value / 16), nibbleToHex (value % 16))

def decodeU8 (pair : UInt8 × UInt8) : Except ProtocolError ℕ := do
  let hi ← decodeNibble pair.1
  let lo ← decodeNibble pair.2
  pure (16 * hi + lo)

def encodeU24 (value : ℕ) : Payload :=
  ⟨encodeU8 (value % 256), encodeU8 (value / 256 % 256), encodeU8 (value / 65536 % 256)⟩

def decodeU24 (p : Payload) : Except ProtocolError ℕ := do
  let lo ← decodeU8 p.lo
  let mid ← decodeU8 p.mid
  let hi ← decodeU8 p.hi
  pure (lo + 256 * mid + 65536 * hi)

def encodePosition (ticks : ℤ) : Except ProtocolError Payload :=
  if -8388608 ≤ ticks ∧ ticks ≤ 8388607 then .ok (encodeU24 ((ticks + 8388608).toNat % 16777216))
  else .error (.hexError ("encoder ticks " ++ toString ticks ++
    " out of signed-24-bit range [-8388608, 8388607]"))

def decodePosition (p : Payload) : Except ProtocolError ℤ := do
  let biased ← decodeU24 p
  pure (biased - 8388608)

/-- Whether a command frame is `:`, at least one byte and a single `\r` at its end. -/
def validateCommandFrame (frame : List UInt8) : Except ProtocolError Unit :=
  match frame with
  | [] | [_] | [_, _] =>
      .error (.frameError s!"command frame too short ({frame.length} bytes)")
  | first :: second :: rest =>
      if first ≠ 58 then
        .error (.frameError ("command frame must start with `:`, got " ++ hexText first))
      else if rest.getLast? ≠ some 13 then
        .error (.frameError "command frame must end with `\\r`")
      else if 13 ∈ second :: rest.dropLast then
        .error (.frameError "command frame contains embedded `\\r`")
      else .ok ()

/-! ## Commands -/

inductive Axis where
  | ra
  | dec
  | both
  deriving DecidableEq

def Axis.wireByte : Axis → UInt8
  | ra => 49
  | dec => 50
  | both => 51

inductive ModeKind where
  | goto
  | tracking
  deriving DecidableEq

inductive Speed where
  | slow
  | fast
  deriving DecidableEq

structure MotionMode where
  kind : ModeKind
  speed : Speed
  ccw : Bool
  deriving DecidableEq

/-- The two nibbles of `:G`. -/
def MotionMode.toWireBytes (mode : MotionMode) : List UInt8 :=
  let tracking := if mode.kind = .tracking then 1 else 0
  -- the speed bit means slow in a goto and fast in tracking
  let speed := match mode.kind, mode.speed with
    | .goto, .slow | .tracking, .fast => 2
    | .goto, .fast | .tracking, .slow => 0
  [nibbleToHex (tracking + speed), nibbleToHex (if mode.ccw then 1 else 0)]

inductive Command where
  | initializeAxis (axis : Axis)
  | inquireCpr (axis : Axis)
  | inquireTmrFreq
  | inquireHighSpeedRatio (axis : Axis)
  | inquireMotorBoardVersion (axis : Axis)
  | inquirePosition (axis : Axis)
  | inquireStatus (axis : Axis)
  | setMotionMode (axis : Axis) (mode : MotionMode)
  | setGotoTarget (axis : Axis) (ticks : ℤ)
  | setGotoTargetIncrement (axis : Axis) (increment : ℕ)
  | setBreakPointIncrement (axis : Axis) (breaks : ℕ)
  | setStepPeriod (axis : Axis) (period : ℕ)
  | setPosition (axis : Axis) (ticks : ℤ)
  | startMotion (axis : Axis)
  | stopMotion (axis : Axis)
  | instantStop (axis : Axis)
  deriving DecidableEq

namespace Command

def letter : Command → UInt8
  | initializeAxis _ => 70
  | inquireCpr _ => 97
  | inquireTmrFreq => 98
  | inquireHighSpeedRatio _ => 103
  | inquireMotorBoardVersion _ => 101
  | inquirePosition _ => 106
  | inquireStatus _ => 102
  | setMotionMode _ _ => 71
  | setGotoTarget _ _ => 83
  | setGotoTargetIncrement _ _ => 72
  | setBreakPointIncrement _ _ => 77
  | setStepPeriod _ _ => 73
  | setPosition _ _ => 69
  | startMotion _ => 74
  | stopMotion _ => 75
  | instantStop _ => 76

/-- The axis of a command; the timer frequency is asked of the first. -/
def axis : Command → Axis
  | inquireTmrFreq => .ra
  | initializeAxis axis | inquireCpr axis | inquireHighSpeedRatio axis | inquireMotorBoardVersion axis
  | inquirePosition axis | inquireStatus axis | setMotionMode axis _ | setGotoTarget axis _
  | setGotoTargetIncrement axis _ | setBreakPointIncrement axis _ | setStepPeriod axis _
  | setPosition axis _ | startMotion axis | stopMotion axis | instantStop axis => axis

def payload : Command → Except ProtocolError (List UInt8)
  | setMotionMode _ mode => .ok mode.toWireBytes
  | setGotoTarget _ ticks | setPosition _ ticks => (encodePosition ticks).map Payload.bytes
  | setGotoTargetIncrement _ value | setBreakPointIncrement _ value | setStepPeriod _ value =>
      .ok (encodeU24 value).bytes
  | _ => .ok []

def encode (command : Command) : Except ProtocolError (List UInt8) :=
  command.payload.map fun payload =>
    58 :: command.letter :: command.axis.wireByte :: (payload ++ [13])

/-- The unsigned payload of a command, if it has one. -/
def unsigned : Command → ℕ
  | setGotoTargetIncrement _ value | setBreakPointIncrement _ value | setStepPeriod _ value => value
  | _ => 0

end Command

/-! ## Digits -/

def isHexDigit (b : UInt8) : Prop :=
  48 ≤ b ∧ b ≤ 57 ∨ 97 ≤ b ∧ b ≤ 102 ∨ 65 ≤ b ∧ b ≤ 70

def toUpper (b : UInt8) : UInt8 := if 97 ≤ b ∧ b ≤ 122 then b - 32 else b

instance (b : UInt8) : Decidable (isHexDigit b) := inferInstanceAs (Decidable (_ ∨ _))

theorem decodeNibble_nibbleToHex {n : ℕ} (h : n < 16) : decodeNibble (nibbleToHex n) = .ok n := by
  have hall : ∀ n : Fin 16, decodeNibble (nibbleToHex n) = .ok n.val := by decide
  exact hall ⟨n, h⟩

/-- A digit is no `\r` and is its own upper case. -/
theorem nibbleToHex_mem (n : ℕ) : isHexDigit (nibbleToHex n) ∧ toUpper (nibbleToHex n) = nibbleToHex n ∧
    nibbleToHex n ≠ 13 := by
  have hall : ∀ n : Fin 16, isHexDigit (nibbleToHex n) ∧ toUpper (nibbleToHex n) = nibbleToHex n ∧
    nibbleToHex n ≠ 13 := by decide
  have hmod : nibbleToHex n = nibbleToHex (n % 16) := by
    unfold nibbleToHex
    rw [Nat.mod_mod]
  rw [hmod]
  exact hall ⟨n % 16, Nat.mod_lt n (by decide)⟩

/-- A digit is decoded to the nibble its upper case is the digit of, and nothing else is decoded. -/
theorem decodeNibble_cases (b : UInt8) :
    (isHexDigit b ∧ ∃ n < 16, decodeNibble b = .ok n ∧ nibbleToHex n = toUpper b) ∨
      ¬ isHexDigit b ∧ ∃ e, decodeNibble b = .error e := by
  have hall : ∀ n : Fin 256, isHexDigit (UInt8.ofNat n) →
      ∃ m : Fin 16, decodeNibble (UInt8.ofNat n) = .ok m.val ∧
        nibbleToHex m = toUpper (UInt8.ofNat n) := by
    decide +kernel
  have hb : UInt8.ofNat b.toNat = b := UInt8.ofNat_toNat
  by_cases hdigit : isHexDigit b
  · obtain ⟨m, hm⟩ := hall ⟨b.toNat, b.toNat_lt⟩ (by rwa [hb])
    rw [hb] at hm
    exact .inl ⟨hdigit, m, m.isLt, hm⟩
  · refine .inr ⟨hdigit, ?_⟩
    unfold isHexDigit at hdigit
    unfold decodeNibble
    rw [if_neg (fun h => hdigit (.inl h)), if_neg (fun h => hdigit (.inr (.inl h))),
      if_neg (fun h => hdigit (.inr (.inr h)))]
    exact ⟨_, rfl⟩

/-! ## Payloads -/

theorem decodeU8_encodeU8 {value : ℕ} (h : value < 256) : decodeU8 (encodeU8 value) = .ok value := by
  have hhi : value / 16 < 16 := by omega
  have hlo : value % 16 < 16 := Nat.mod_lt _ (by decide)
  simp only [decodeU8, encodeU8, decodeNibble_nibbleToHex hhi, decodeNibble_nibbleToHex hlo]
  exact congrArg Except.ok (Nat.div_add_mod value 16)

/-- A value is read back but for what is above 24 bits. -/
theorem decodeU24_encodeU24 (value : ℕ) : decodeU24 (encodeU24 value) = .ok (value % 16777216) := by
  simp only [decodeU24, encodeU24, decodeU8_encodeU8 (Nat.mod_lt _ (by decide : 0 < 256))]
  refine congrArg Except.ok ?_
  omega

def upperPair (pair : UInt8 × UInt8) : UInt8 × UInt8 := (toUpper pair.1, toUpper pair.2)

def Payload.upper (p : Payload) : Payload := ⟨upperPair p.lo, upperPair p.mid, upperPair p.hi⟩

theorem decodeU8_cases (pair : UInt8 × UInt8) :
    ((isHexDigit pair.1 ∧ isHexDigit pair.2) ∧
      ∃ n < 256, decodeU8 pair = .ok n ∧ encodeU8 n = upperPair pair) ∨
    ¬ (isHexDigit pair.1 ∧ isHexDigit pair.2) ∧ ∃ e, decodeU8 pair = .error e := by
  rcases decodeNibble_cases pair.1 with ⟨hhi, hi, hhiLt, hhiEq, hhiUp⟩ | ⟨hhi, e, hhiEq⟩
  · rcases decodeNibble_cases pair.2 with ⟨hlo, lo, hloLt, hloEq, hloUp⟩ | ⟨hlo, e, hloEq⟩
    · refine .inl ⟨⟨hhi, hlo⟩, 16 * hi + lo, by omega, by rw [decodeU8, hhiEq, hloEq]; rfl, ?_⟩
      have hdiv : (16 * hi + lo) / 16 = hi := by omega
      have hmod : (16 * hi + lo) % 16 = lo := by omega
      rw [encodeU8, hdiv, hmod, hhiUp, hloUp]
      rfl
    · exact .inr ⟨fun h => hlo h.2, e, by rw [decodeU8, hhiEq, hloEq]; rfl⟩
  · exact .inr ⟨fun h => hhi h.1, e, by rw [decodeU8, hhiEq]; rfl⟩

/-- Six digits are decoded to a value whose encoding is their upper case, and nothing else is. -/
theorem decodeU24_cases (p : Payload) :
    ((∀ b ∈ p.bytes, isHexDigit b) ∧
      ∃ n < 16777216, decodeU24 p = .ok n ∧ encodeU24 n = p.upper) ∨
    ¬ (∀ b ∈ p.bytes, isHexDigit b) ∧ ∃ e, decodeU24 p = .error e := by
  have hbytes : (∀ b ∈ p.bytes, isHexDigit b) ↔ (isHexDigit p.lo.1 ∧ isHexDigit p.lo.2) ∧
      (isHexDigit p.mid.1 ∧ isHexDigit p.mid.2) ∧ isHexDigit p.hi.1 ∧ isHexDigit p.hi.2 := by
    simp [Payload.bytes, and_assoc]
  rw [hbytes]
  rcases decodeU8_cases p.lo with ⟨hlo, lo, hloLt, hloEq, hloUp⟩ | ⟨hlo, e, he⟩
  · rcases decodeU8_cases p.mid with ⟨hmid, mid, hmidLt, hmidEq, hmidUp⟩ | ⟨hmid, e, he⟩
    · rcases decodeU8_cases p.hi with ⟨hhi, hi, hhiLt, hhiEq, hhiUp⟩ | ⟨hhi, e, he⟩
      · refine .inl ⟨⟨hlo, hmid, hhi⟩, lo + 256 * mid + 65536 * hi, by omega,
          by rw [decodeU24, hloEq, hmidEq, hhiEq]; rfl, ?_⟩
        have hloDiv : (lo + 256 * mid + 65536 * hi) % 256 = lo := by omega
        have hmidDiv : (lo + 256 * mid + 65536 * hi) / 256 % 256 = mid := by omega
        have hhiDiv : (lo + 256 * mid + 65536 * hi) / 65536 % 256 = hi := by omega
        rw [encodeU24, hloDiv, hmidDiv, hhiDiv, hloUp, hmidUp, hhiUp]
        rfl
      · exact .inr ⟨fun h => hhi h.2.2, e, by rw [decodeU24, hloEq, hmidEq, he]; rfl⟩
    · exact .inr ⟨fun h => hmid h.2.1, e, by rw [decodeU24, hloEq, he]; rfl⟩
  · exact .inr ⟨fun h => hlo h.1, e, by rw [decodeU24, he]; rfl⟩

def InRange (ticks : ℤ) : Prop := -8388608 ≤ ticks ∧ ticks ≤ 8388607

/-- A position in range is encoded, and read back. -/
theorem encodePosition_ok {ticks : ℤ} (h : InRange ticks) :
    ∃ p, encodePosition ticks = .ok p ∧ decodePosition p = .ok ticks ∧
      p = encodeU24 (ticks + 8388608).toNat := by
  have hsmall : (ticks + 8388608).toNat % 16777216 = (ticks + 8388608).toNat := by
    unfold InRange at h
    omega
  refine ⟨_, if_pos h, ?_, by rw [hsmall]⟩
  rw [hsmall, decodePosition, decodeU24_encodeU24, hsmall]
  refine congrArg Except.ok ?_
  unfold InRange at h
  omega

/-- The value of a 24-bit payload tells it. -/
theorem encodeU24_injective {a b : ℕ} (ha : a < 16777216) (hb : b < 16777216)
    (h : (encodeU24 a).bytes = (encodeU24 b).bytes) : a = b := by
  have heq : encodeU24 a = encodeU24 b := by
    simpa [Payload.bytes, encodeU24, Prod.ext_iff, and_assoc] using h
  have hdecode := congrArg decodeU24 heq
  rw [decodeU24_encodeU24, decodeU24_encodeU24, Nat.mod_eq_of_lt ha, Nat.mod_eq_of_lt hb] at hdecode
  exact Except.ok.inj hdecode

theorem encodePosition_injective {a b : ℤ} {p q : Payload} (ha : encodePosition a = .ok p)
    (hb : encodePosition b = .ok q) (h : p.bytes = q.bytes) : a = b := by
  unfold encodePosition at ha hb
  split at ha <;> split at hb <;> cases ha <;> cases hb
  next hina hinb =>
    have hvalue := encodeU24_injective (Nat.mod_lt _ (by decide)) (Nat.mod_lt _ (by decide)) h
    omega

theorem toWireBytes_injective {a b : MotionMode} (h : a.toWireBytes = b.toWireBytes) : a = b := by
  obtain ⟨kind, speed, ccw⟩ := a
  obtain ⟨kind', speed', ccw'⟩ := b
  cases kind <;> cases speed <;> cases ccw <;> cases kind' <;> cases speed' <;> cases ccw' <;>
    first | rfl | (revert h; decide)

namespace Command

theorem encode_ok {command : Command} {frame : List UInt8} (h : command.encode = .ok frame) :
    ∃ payload, command.payload = .ok payload ∧
      frame = 58 :: command.letter :: command.axis.wireByte :: (payload ++ [13]) := by
  unfold encode at h
  cases hpayload : command.payload with
  | error e =>
      rw [hpayload] at h
      cases h
  | ok payload =>
      rw [hpayload] at h
      cases h
      exact ⟨payload, rfl, rfl⟩

theorem not_mem_encodeU24 (value : ℕ) : (13 : UInt8) ∉ (encodeU24 value).bytes := by
  simp only [Payload.bytes, encodeU24, encodeU8, List.mem_cons, List.not_mem_nil, or_false, not_or]
  exact ⟨(nibbleToHex_mem _).2.2.symm, (nibbleToHex_mem _).2.2.symm, (nibbleToHex_mem _).2.2.symm,
    (nibbleToHex_mem _).2.2.symm, (nibbleToHex_mem _).2.2.symm, (nibbleToHex_mem _).2.2.symm⟩

/-- No payload holds the terminator. -/
theorem not_mem_payload {command : Command} {payload : List UInt8}
    (h : command.payload = .ok payload) : 13 ∉ payload := by
  have hposition : ∀ ticks, (encodePosition ticks).map Payload.bytes = .ok payload →
      13 ∉ payload := by
    intro ticks h
    unfold encodePosition at h
    split at h <;> cases h
    exact not_mem_encodeU24 _
  unfold Command.payload at h
  split at h
  · cases h
    simp [MotionMode.toWireBytes, (nibbleToHex_mem _).2.2.symm]
  · exact hposition _ h
  · exact hposition _ h
  · cases h; exact not_mem_encodeU24 _
  · cases h; exact not_mem_encodeU24 _
  · cases h; exact not_mem_encodeU24 _
  · cases h; exact List.not_mem_nil

theorem validate_encode {command : Command} {frame : List UInt8} (h : command.encode = .ok frame) :
    validateCommandFrame frame = .ok () := by
  obtain ⟨payload, hpayload, rfl⟩ := encode_ok h
  have hletter : command.letter ≠ 13 := by cases command <;> simp [letter]
  have haxis : command.axis.wireByte ≠ 13 := by cases command.axis <;> decide
  have hnone := not_mem_payload hpayload
  have hlast : (command.axis.wireByte :: (payload ++ [13])).getLast? = some 13 := by
    rw [← List.cons_append, List.getLast?_concat]
  have hbody : (13 : UInt8) ∉ command.letter ::
      (command.axis.wireByte :: (payload ++ [13])).dropLast := by
    rw [← List.cons_append, List.dropLast_concat]
    simp [hletter.symm, haxis.symm, hnone]
  unfold validateCommandFrame
  split
  · next heq => cases heq
  · next heq => cases heq
  · next heq => simp at heq
  · next heq =>
      cases heq
      rw [if_neg (by decide), if_neg (by rw [hlast]; exact not_not.mpr rfl), if_neg hbody]

/-- Two commands with one frame are the same. -/
theorem encode_injective {a b : Command} {frame : List UInt8} (ha : a.encode = .ok frame)
    (hb : b.encode = .ok frame) (hasmall : a.unsigned < 16777216) (hbsmall : b.unsigned < 16777216) :
    a = b := by
  obtain ⟨p, hp, rfl⟩ := encode_ok ha
  obtain ⟨q, hq, heq⟩ := encode_ok hb
  simp only [List.cons.injEq, true_and, List.append_cancel_right_eq] at heq
  obtain ⟨hletter, haxis, rfl⟩ := heq
  have haxis : a.axis = b.axis := by
    revert haxis
    cases a.axis <;> cases b.axis <;> decide
  have hposition : ∀ s t, (encodePosition s).map Payload.bytes = .ok p →
      (encodePosition t).map Payload.bytes = .ok p → s = t := by
    intro s t hs ht
    cases hps : encodePosition s with
    | error e => rw [hps] at hs; cases hs
    | ok ps =>
        cases hpt : encodePosition t with
        | error e => rw [hpt] at ht; cases ht
        | ok pt =>
            rw [hps] at hs
            rw [hpt] at ht
            exact encodePosition_injective hps hpt (Except.ok.inj (hs.trans ht.symm))
  have hunsigned : ∀ m n, m < 16777216 → n < 16777216 → .ok (encodeU24 m).bytes = Except.ok p →
      (.ok (encodeU24 n).bytes : Except ProtocolError _) = .ok p → m = n :=
    fun m n hm hn hmp hnp => encodeU24_injective hm hn (Except.ok.inj (hmp.trans hnp.symm))
  cases a <;> cases b <;> simp [letter] at hletter <;> cases haxis <;> first
    | rfl
    | exact congrArg _ (hposition _ _ hp hq)
    | exact congrArg _ (hunsigned _ _ hasmall hbsmall hp hq)
    | exact congrArg _ (toWireBytes_injective (Except.ok.inj (hp.trans hq.symm)))

end Command

/-! ## The codec -/

/-- A payload of upper-case digits. -/
def Payload.UpperHex (p : Payload) : Prop := (∀ b ∈ p.bytes, isHexDigit b) ∧ p.upper = p

theorem upperHex_encodeU24 (value : ℕ) : (encodeU24 value).UpperHex := by
  constructor
  · simp only [Payload.bytes, encodeU24, encodeU8, List.forall_mem_cons, List.not_mem_nil,
      false_imp_iff, implies_true, and_true]
    exact ⟨(nibbleToHex_mem _).1, (nibbleToHex_mem _).1, (nibbleToHex_mem _).1,
      (nibbleToHex_mem _).1, (nibbleToHex_mem _).1, (nibbleToHex_mem _).1⟩
  · simp only [Payload.upper, upperPair, encodeU24, encodeU8, (nibbleToHex_mem _).2.1]

/-- A payload that is read as a position is, in upper case, the one the position is written as. -/
theorem decodePosition_ok {p : Payload} {ticks : ℤ} (h : decodePosition p = .ok ticks) :
    InRange ticks ∧ p.upper = encodeU24 (ticks + 8388608).toNat := by
  rcases decodeU24_cases p with ⟨-, n, hn, heq, hup⟩ | ⟨-, e, he⟩
  · have hticks : (n : ℤ) - 8388608 = ticks := by
      rw [decodePosition, heq] at h
      exact Except.ok.inj h
    have hvalue : (ticks + 8388608).toNat = n := by omega
    exact ⟨by unfold InRange; omega, by rw [hvalue, hup]⟩
  · rw [decodePosition, he] at h
    cases h

/-- The codec is faithful. Values and positions round trip, the payloads of six upper-case digits are
the positions of 24 bits, and the frame of a command is well formed and its own. -/
theorem codec_faithful :
    (∀ v, decodeU24 (encodeU24 v) = .ok (v % 16777216)) ∧
    (∀ p, ((∃ n, decodeU24 p = .ok n) ↔ ∀ b ∈ p.bytes, isHexDigit b) ∧
      ∀ n, decodeU24 p = .ok n → encodeU24 n = p.upper) ∧
    (∀ ticks, (∃ p, encodePosition ticks = .ok p) ↔ InRange ticks) ∧
    (∀ ticks p, encodePosition ticks = .ok p → decodePosition p = .ok ticks) ∧
    (∀ p : Payload, p.UpperHex → ∃ ticks, InRange ticks ∧ decodePosition p = .ok ticks) ∧
    (∀ ticks, InRange ticks → ∃! p : Payload, p.UpperHex ∧ decodePosition p = .ok ticks) ∧
    (∀ (command : Command) (frame : List UInt8), command.unsigned < 16777216 →
      command.encode = .ok frame → validateCommandFrame frame = .ok ()) ∧
    ∀ (a b : Command) (frame : List UInt8), a.unsigned < 16777216 → b.unsigned < 16777216 →
      a.encode = .ok frame → b.encode = .ok frame → a = b := by
  refine ⟨decodeU24_encodeU24, ?_, ?_, ?_, ?_, ?_, fun _ _ _ h => Command.validate_encode h,
    fun _ _ _ ha hb h h' => Command.encode_injective h h' ha hb⟩
  · intro p
    rcases decodeU24_cases p with ⟨hdigits, n, -, heq, hup⟩ | ⟨hdigits, e, he⟩
    · refine ⟨iff_of_true ⟨n, heq⟩ hdigits, fun m hm => ?_⟩
      rw [heq] at hm
      cases hm
      exact hup
    · refine ⟨iff_of_false (by simp [he]) hdigits, fun m hm => ?_⟩
      rw [he] at hm
      cases hm
  · intro ticks
    refine ⟨fun ⟨p, h⟩ => ?_, fun h => ?_⟩
    · unfold encodePosition at h
      split at h
      · assumption
      · cases h
    · obtain ⟨p, hp, -⟩ := encodePosition_ok h
      exact ⟨p, hp⟩
  · intro ticks p h
    have hrange : InRange ticks := by
      unfold encodePosition at h
      split at h
      · assumption
      · cases h
    obtain ⟨q, hq, hread, -⟩ := encodePosition_ok hrange
    rw [hq] at h
    cases h
    exact hread
  · intro p hp
    rcases decodeU24_cases p with ⟨-, n, hn, heq, -⟩ | ⟨hdigits, -⟩
    · refine ⟨n - 8388608, by unfold InRange; omega, ?_⟩
      rw [decodePosition, heq]
      rfl
    · exact absurd hp.1 hdigits
  · intro ticks h
    obtain ⟨p, -, hread, hwritten⟩ := encodePosition_ok h
    refine ⟨p, ⟨?_, hread⟩, fun q hq => ?_⟩
    · rw [hwritten]
      exact upperHex_encodeU24 _
    · rw [hwritten, ← (decodePosition_ok hq.2).2]
      exact hq.1.2.symm

end RustyPhoton.Skywatcher
