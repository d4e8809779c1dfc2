import TakaFlow.Format

/-!
# Configuration and platform
-/

namespace TakaFlow

/-- The settings the modelled functions read, with their defaults. -/
structure Config where
  refreshTokenTtlSeconds : ℕ := 604800
  accessTokenTtlSeconds : ℕ := 900
  signupBonusMinor : ℕ := 10000000
  minTransferMinor : ℕ := 100
  maxTransferMinor : ℕ := 5000000
  dailyTransferLimitMinor : ℕ := 20000000
  reversalWindowSeconds : ℕ := 60
  scheduleCatchupGraceMs : ℕ := 6 * 60 * 60 * 1000
  scheduleMaxAttempts : ℕ := 3
  scheduleRetryBaseSeconds : ℕ := 900
  /-- Is `REPLICA_DATABASE_URL` set? -/
  replica : Bool := false
  /-- `z.number().int().positive()`. -/
  positive : ∀ n ∈ [refreshTokenTtlSeconds, accessTokenTtlSeconds, signupBonusMinor,
    minTransferMinor, maxTransferMinor, dailyTransferLimitMinor, reversalWindowSeconds,
    scheduleCatchupGraceMs, scheduleMaxAttempts, scheduleRetryBaseSeconds], 0 < n := by decide

/-- The live policy of one instance. -/
structure VelocityPolicy where
  windowSeconds : ℕ := 60
  maxTransfers : ℕ := 3
  alertThresholdMinor : ℤ := 5000000

/-- The settings, the policy, and the functions of the platform the backend builds on: the
digest, `JSON.stringify` of strings and of numbers, the hash under an advisory lock, the encodings
of tokens and the calendar of the database. -/
structure Platform where
  config : Config
  policy : VelocityPolicy
  sha256 : String → String
  stringifyString : String → String
  stringifyNumber : ℚ → String
  hashtext : String → ℤ
  signJwt : (phone : String) → (jti subject : Uuid) → (issuedAt : Timestamp) → String
  base64url : List (Fin 256) → String
  addDay : Timestamp → Timestamp
  addWeek : Timestamp → Timestamp
  addMonth : Timestamp → Timestamp

/-! ### The treasury -/

def treasuryStripeCount : ℕ := 8

lemma treasuryStripeCount_pos : 0 < treasuryStripeCount := by decide

/-- The stripes are the accounts 1 to 8. -/
def treasuryAccountIds : List Uuid := (List.range treasuryStripeCount).map (· + 1)

/-- `pickTreasuryStripe`, from a random index. -/
def pickTreasuryStripe (i : Fin treasuryStripeCount) : Uuid := i.val + 1

lemma pickTreasuryStripe_mem (i : Fin treasuryStripeCount) :
    pickTreasuryStripe i ∈ treasuryAccountIds :=
  List.mem_map_of_mem (List.mem_range.mpr i.isLt)

end TakaFlow
