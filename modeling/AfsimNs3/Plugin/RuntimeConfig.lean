import AfsimNs3.Lib.Ctype
import AfsimNs3.Lib.Ranges

/-!
# The configuration of the plugin (`RuntimeConfig`)

Every setting comes from an environment variable, with a default for one that is absent, empty or not a number, and is
kept within the bounds its uses rely on. The environment and `std::stod` are parameters: whatever they are, the
configuration is `Valid` (`ofEnvironment_valid`).
-/

namespace AfsimNs3.Plugin

/-- `getenv`. -/
abbrev Environment := Bytes → Option Bytes

section
variable (getenv : Environment) (stod : Bytes → Except Bytes Double)

def environmentText (name fallback : Bytes) : Bytes :=
  match getenv name with
  | some value => if value ≠ [] then value else fallback
  | none => fallback

def environmentHasValue (name : Bytes) : Bool :=
  match getenv name with
  | some value => value ≠ []
  | none => false

def environmentDouble (name : Bytes) (fallback : Double) (minimum : ℚ) : Double :=
  match stod (environmentText getenv name []) with
  | .ok value => value.atLeast minimum
  | .error _ => fallback

def environmentUint32 (name : Bytes) (fallback minimum : UInt32) : UInt32 :=
  match stoull (environmentText getenv name []) with
  | .ok parsed => if 4294967295 < parsed then fallback else max minimum parsed.toUInt32
  | .error _ => fallback

def environmentUint64 (name : Bytes) (fallback minimum : UInt64) : UInt64 :=
  match stoull (environmentText getenv name []) with
  | .ok parsed => max minimum parsed
  | .error _ => fallback

end

/-- The configuration; `traceTicks`, which only concerns the log, is left out. -/
structure RuntimeConfig where
  host : Bytes
  port : UInt16
  intervalSeconds : Double
  defaultDataRateBps : UInt64
  defaultDelayMs : Double
  delayOverride : Bool
  defaultLossRate : Double
  lossOverride : Bool
  linkKind : Bytes

/-- The double `0.05`. -/
def leastInterval : ℚ := (Double.ofRat (1 / 20)).toRat

def RuntimeConfig.ofEnvironment (getenv : Environment) (stod : Bytes → Except Bytes Double) : RuntimeConfig where
  host := environmentText getenv (ascii "AFSIM_NS3_HOST") (ascii "127.0.0.1")
  port := (min 65535 (environmentUint32 getenv (ascii "AFSIM_NS3_PORT") 18080 1)).toUInt16
  intervalSeconds := environmentDouble getenv stod (ascii "AFSIM_NS3_INTERVAL_SECONDS") (.finite 1) leastInterval
  defaultDataRateBps := environmentUint64 getenv (ascii "AFSIM_NS3_DATA_RATE_BPS") 1000000 1
  defaultDelayMs := environmentDouble getenv stod (ascii "AFSIM_NS3_DELAY_MS") (.finite 1) 0
  delayOverride := environmentHasValue getenv (ascii "AFSIM_NS3_DELAY_MS")
  defaultLossRate := (environmentDouble getenv stod (ascii "AFSIM_NS3_LOSS_RATE") (.finite 0) 0).atMost 1
  lossOverride := environmentHasValue getenv (ascii "AFSIM_NS3_LOSS_RATE")
  linkKind := environmentText getenv (ascii "AFSIM_NS3_LINK_KIND") (ascii "wireless")

/-- What the uses of the configuration rely on. An interval or a delay may be infinite. -/
structure RuntimeConfig.Valid (c : RuntimeConfig) : Prop where
  host : c.host ≠ []
  port : c.port ≠ 0
  interval : Double.AtLeast leastInterval c.intervalSeconds
  dataRate : 1 ≤ c.defaultDataRateBps
  delay : Double.AtLeast 0 c.defaultDelayMs
  loss : Double.Within 0 1 c.defaultLossRate

theorem environmentDouble_atLeast (getenv : Environment) (stod : Bytes → Except Bytes Double) (name : Bytes)
    {fallback : Double} {minimum : ℚ} (h : Double.AtLeast minimum fallback) :
    Double.AtLeast minimum (environmentDouble getenv stod name fallback minimum) := by
  unfold environmentDouble
  split
  · exact Double.atLeast_spec _ _
  · exact h

theorem le_max_uint32 (a b : UInt32) : a ≤ max a b := by
  show a ≤ if a ≤ b then b else a
  split_ifs with h
  · exact h
  · exact UInt32.le_refl a

theorem le_max_uint64 (a b : UInt64) : a ≤ max a b := by
  show a ≤ if a ≤ b then b else a
  split_ifs with h
  · exact h
  · exact UInt64.le_refl a

theorem environmentUint32_le (getenv : Environment) (name : Bytes) {fallback minimum : UInt32} (h : minimum ≤ fallback) :
    minimum ≤ environmentUint32 getenv name fallback minimum := by
  unfold environmentUint32
  split
  · split_ifs
    · exact h
    · exact le_max_uint32 _ _
  · exact h

/-- **Every environment gives a valid configuration**, whatever its variables hold. -/
theorem ofEnvironment_valid (getenv : Environment) (stod : Bytes → Except Bytes Double) :
    (RuntimeConfig.ofEnvironment getenv stod).Valid where
  host := by
    unfold RuntimeConfig.ofEnvironment environmentText
    dsimp only
    split
    · split_ifs with h
      · exact h
      · decide
    · decide
  port := by
    have hone : 1 ≤ environmentUint32 getenv (ascii "AFSIM_NS3_PORT") 18080 1 := environmentUint32_le _ _ (by decide)
    unfold RuntimeConfig.ofEnvironment
    dsimp only
    generalize environmentUint32 getenv (ascii "AFSIM_NS3_PORT") 18080 1 = port at hone
    intro hzero
    have hnat : (if (65535 : UInt32) ≤ port then (65535 : UInt32) else port).toNat % 65536 = 0 :=
      congrArg UInt16.toNat hzero
    rw [UInt32.le_iff_toNat_le] at hone
    split_ifs at hnat with hle
    · exact absurd hnat (by decide)
    · rw [UInt32.le_iff_toNat_le] at hle
      have hlow : (1 : UInt32).toNat = 1 := rfl
      have hhigh : (65535 : UInt32).toNat = 65535 := rfl
      omega
  interval := environmentDouble_atLeast _ _ _ (.inr (by decide +kernel))
  dataRate := by
    unfold RuntimeConfig.ofEnvironment environmentUint64
    dsimp only
    split
    · exact le_max_uint64 _ _
    · decide
  delay := environmentDouble_atLeast _ _ _ (.inr (by decide))
  loss := (environmentDouble_atLeast _ _ _ (.inl rfl)).atMost (by decide)

end AfsimNs3.Plugin
