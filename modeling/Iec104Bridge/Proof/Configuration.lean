import Iec104Bridge.Framework.Checks
import Iec104Bridge.Proof.Transport

/-!
# Which configurations are accepted

An environment is refused with the fault of the first of `configChecks` that
finds one, whose message begins with the variable at fault (`refused_by_first_fault`). The
configurations that an environment can give are those that are `Valid`, and each
is read back from its own `settings` (`valid_iff_accepted`).
-/

namespace Iec104Bridge

open Framework

variable {e e' : Env}

/-! ## The checks -/

/-- A check of a variable, which may only be made because of another one. -/
abbrev ConfigCheck := Check (String × String) Env ErrorText

def ConfigCheck.variable (check : ConfigCheck) : String := check.name.1

/-- The variable that decides whether the check is made, or the same variable. -/
def ConfigCheck.guard (check : ConfigCheck) : String := check.name.2

def transportCheck : ConfigCheck where
  name := ("INPUT_TRANSPORT", "INPUT_TRANSPORT")
  fault e := failure (InputTransport.parse ((e "INPUT_TRANSPORT").getD "nats"))

/-- A variable that is required with NATS. -/
def natsCheck (key : String) : ConfigCheck where
  name := (key, "INPUT_TRANSPORT")
  fault e := if (e "INPUT_TRANSPORT").getD "nats" = "nats" ∧ (e key).isNone
    then some (.plain s!"{key} must be set") else none

/-- A number that has to parse, where it is set. -/
def numberCheck (T : Type) [FromStr T] (key : String) : ConfigCheck where
  name := (key, key)
  fault e := if (e key).any fun v => (FromStr.parse (T := T) v).isNone
    then some (.plain s!"{key} must be a valid {FromStr.typeName T}") else none

/-- A number that must not be zero. -/
def positiveCheck {T : Type} [FromStr T] [DecidableEq T] (zero : T) (key : String) : ConfigCheck where
  name := (key, key)
  fault e := if (e key).bind FromStr.parse = some zero
    then some (.plain (key ++ " must be greater than zero")) else none

def flagCheck (key : String) : ConfigCheck where
  name := (key, key)
  fault e := failure (Config.parseBoolWithDefault e key true)

/-- A path that is required with TLS. -/
def tlsCheck (key : String) : ConfigCheck where
  name := (key, "TLS_ENABLED")
  fault e := if Config.isTruthy (e "TLS_ENABLED") ∧ (e key).isNone
    then some (.plain s!"{key} must be set when TLS_ENABLED=true") else none

def natsChecks : List ConfigCheck := [natsCheck "NATS_STREAM", natsCheck "NATS_CONSUMER"]

def unixSocketChecks : List ConfigCheck :=
  [numberCheck Usize "UNIX_SOCKET_MAX_LINE_BYTES", positiveCheck (⟨0⟩ : Usize) "UNIX_SOCKET_MAX_LINE_BYTES",
    numberCheck UInt32 "UNIX_SOCKET_ALLOWED_UID", numberCheck UInt32 "UNIX_SOCKET_ALLOWED_GID"]

def serverChecks : List ConfigCheck :=
  [numberCheck UInt16 "IEC104_QUEUE_SIZE", positiveCheck (0 : UInt16) "IEC104_QUEUE_SIZE",
    numberCheck UInt64 "IEC104_MAX_AGE_SECONDS", positiveCheck (0 : UInt64) "IEC104_MAX_AGE_SECONDS",
    numberCheck UInt16 "IEC104_PORT", numberCheck UInt16 "IEC104_CA", numberCheck UInt16 "METRICS_PORT",
    flagCheck "IEC104_TIMESTAMPS"]

def tlsChecks : List ConfigCheck :=
  [tlsCheck "TLS_CERT_PATH", tlsCheck "TLS_KEY_PATH", tlsCheck "TLS_CA_CERT_PATH",
    numberCheck UInt16 "TLS_PORT"]

/-- The checks of an environment, in the order they are made. -/
def configChecks : List ConfigCheck :=
  transportCheck :: (natsChecks ++ unixSocketChecks ++ serverChecks ++ tlsChecks)

/-! ## What is refused -/

theorem failure_parseWithDefault (T : Type) [FromStr T] {key default : String}
    (hd : (FromStr.parse (T := T) default).isSome) :
    failure (Config.parseWithDefault T e key default) = (numberCheck T key).fault e := by
  simp only [Config.parseWithDefault, numberCheck]
  cases e key with
  | none =>
    obtain ⟨n, hn⟩ := Option.isSome_iff_exists.mp hd
    simp [hn]
  | some v => cases h : FromStr.parse (T := T) v <;> simp [h]

theorem failure_parseOptional (T : Type) [FromStr T] {key : String} :
    failure (Config.parseOptional T e key) = (numberCheck T key).fault e := by
  simp only [Config.parseOptional, numberCheck]
  cases e key with
  | none => simp
  | some v => cases h : FromStr.parse (T := T) v <;> simp [h]

/-- A default is not zero. -/
theorem parsed_zero_iff {T : Type} [FromStr T] {zero n d : T} {key default : String}
    (hd : FromStr.parse default = some d) (hz : d ≠ zero)
    (h : Config.parseWithDefault T e key default = .ok n) :
    (e key).bind FromStr.parse = some zero ↔ n = zero := by
  have hn := parseWithDefault_ok h
  cases hk : e key with
  | none =>
    rw [hk, Option.getD_none, hd] at hn
    cases hn
    simpa using hz
  | some v =>
    rw [hk, Option.getD_some] at hn
    simp [hn]

theorem parsedOptional_zero_iff {T : Type} [FromStr T] {zero : T} {n : Option T} {key : String}
    (h : Config.parseOptional T e key = .ok n) :
    (e key).bind FromStr.parse = some zero ↔ n = some zero := by
  unfold Config.parseOptional at h
  cases hk : e key with
  | none =>
    rw [hk] at h
    cases h
    simp
  | some v =>
    rw [hk] at h
    cases hp : FromStr.parse (T := T) v with
    | none => simp [hp] at h
    | some m =>
      simp only [hp] at h
      cases h
      simp [hp]

/-! ### One statement after the other -/

section

variable {α : Type} {checks : List ConfigCheck}

theorem failure_number (T : Type) [FromStr T] {key default : String} {f : T → Except ErrorText α}
    (hd : (FromStr.parse (T := T) default).isSome)
    (h : ∀ n, Config.parseWithDefault T e key default = .ok n → failure (f n) = firstFault checks e) :
    failure (Config.parseWithDefault T e key default >>= f) =
      firstFault (numberCheck T key :: checks) e := by
  rw [failure_bind h, firstFault_cons, failure_parseWithDefault T hd]

theorem failure_optional (T : Type) [FromStr T] {key : String} {f : Option T → Except ErrorText α}
    (h : ∀ n, Config.parseOptional T e key = .ok n → failure (f n) = firstFault checks e) :
    failure (Config.parseOptional T e key >>= f) = firstFault (numberCheck T key :: checks) e := by
  rw [failure_bind h, firstFault_cons, failure_parseOptional T]

theorem failure_positive {T : Type} [FromStr T] [DecidableEq T] {zero : T} {key message : String}
    {cond : Bool} {f : Unit → Except ErrorText α} (hm : message = key ++ " must be greater than zero")
    (hz : (e key).bind FromStr.parse = some zero ↔ cond = true)
    (h : failure (f ()) = firstFault checks e) :
    failure (Config.bailIf cond message >>= f) = firstFault (positiveCheck zero key :: checks) e := by
  rw [failure_bind fun _ _ => h, firstFault_cons, hm]
  simp only [positiveCheck, hz]
  cases cond <;> rfl

end

theorem failure_loadNatsConfig {transport : InputTransport}
    (ht : Config.loadInputTransport e = .ok transport) :
    failure (Config.loadNatsConfig e transport) = firstFault natsChecks e := by
  have hn : (e "INPUT_TRANSPORT").getD "nats" = "nats" ↔ transport = .nats := by
    unfold Config.loadInputTransport InputTransport.parse at ht
    split at ht
    · cases ht
      simpa using ‹_›
    · split at ht <;> cases ht
      simpa using ‹_›
  simp only [natsChecks, firstFault_cons, firstFault_nil, natsCheck, hn]
  cases transport with
  | unixSocket => rfl
  | nats =>
    unfold Config.loadNatsConfig Config.loadNatsConsumerParts Config.required
    cases e "NATS_STREAM" <;> cases e "NATS_CONSUMER" <;> rfl

theorem failure_loadUnixSocketConfig :
    failure (Config.loadUnixSocketConfig e) = firstFault unixSocketChecks e := by
  have hd : FromStr.parse "65536" = some (⟨65536⟩ : Usize) := by decide +kernel
  have hmax : failure (Config.loadUnixSocketMaxLineBytes e) =
      firstFault (unixSocketChecks.take 2) e := by
    refine failure_number Usize (by rw [hd]; rfl) fun n hn => ?_
    refine failure_positive (by decide +kernel) ?_ rfl
    rw [parsed_zero_iff hd (by decide) hn, decide_eq_true_iff]
    exact ⟨congrArg Usize.val, fun h => by cases n; exact congrArg Usize.mk h⟩
  refine (failure_bind (r := firstFault (unixSocketChecks.drop 2) e) fun n _ => ?_).trans ?_
  · exact failure_optional UInt32 fun _ _ => failure_optional UInt32 fun _ _ => rfl
  · rw [hmax, ← firstFault_append, List.take_append_drop]

theorem failure_loadServerConfig :
    failure (Config.loadServerConfig e) = firstFault serverChecks e := by
  have hd : FromStr.parse "1024" = some (1024 : UInt16) := by decide +kernel
  refine failure_number UInt16 (by rw [hd]; rfl) fun n hn => ?_
  refine failure_positive (by decide +kernel) ?_ ?_
  · rw [parsed_zero_iff hd (by decide) hn, decide_eq_true_iff]
  refine failure_optional UInt64 fun m hm => ?_
  refine failure_positive (by decide +kernel) ?_ ?_
  · rw [parsedOptional_zero_iff hm, decide_eq_true_iff]
  refine failure_number UInt16 (by decide +kernel) fun _ _ => ?_
  refine failure_number UInt16 (by decide +kernel) fun _ _ => ?_
  refine failure_number UInt16 (by decide +kernel) fun _ _ => ?_
  rw [failure_bind (r := none) fun _ _ => rfl, firstFault_cons]
  rfl

theorem failure_loadTlsConfig : failure (Config.loadTlsConfig e) = firstFault tlsChecks e := by
  have hpaths : failure (Config.validateTlsPaths (Config.isTruthy (e "TLS_ENABLED"))
      (e "TLS_CERT_PATH") (e "TLS_KEY_PATH") (e "TLS_CA_CERT_PATH")) =
      firstFault (tlsChecks.take 3) e := by
    simp only [tlsChecks, List.take_succ_cons, List.take_zero, firstFault_cons, firstFault_nil, tlsCheck]
    unfold Config.validateTlsPaths Config.requirePresent
    cases Config.isTruthy (e "TLS_ENABLED") with
    | false => rfl
    | true => cases e "TLS_CERT_PATH" <;> cases e "TLS_KEY_PATH" <;> cases e "TLS_CA_CERT_PATH" <;> rfl
  refine (failure_bind (r := firstFault (tlsChecks.drop 3) e) fun _ _ => ?_).trans ?_
  · exact failure_number UInt16 (by decide +kernel) fun _ _ => rfl
  · rw [hpaths, ← firstFault_append, List.take_append_drop]

theorem failure_loadConfigParts : failure (Config.loadConfigParts e) = firstFault configChecks e := by
  rw [configChecks, firstFault_cons]
  refine failure_bind fun transport ht => ?_
  simp only [firstFault_append, ← failure_loadNatsConfig ht, ← failure_loadUnixSocketConfig,
    ← failure_loadServerConfig, ← failure_loadTlsConfig, Option.or_assoc]
  refine failure_bind fun _ _ => failure_bind fun _ _ => failure_bind fun _ _ => ?_
  exact (failure_bind (r := none) fun _ _ => rfl).trans Option.or_none

theorem failure_fromLookup : failure (Config.fromLookup e) = firstFault configChecks e := by
  rw [← failure_loadConfigParts]
  exact (failure_bind (r := none) fun _ _ => rfl).trans Option.or_none

/-- The message of the check begins with its variable, and what the check finds
depends on its variables only. -/
structure ConfigCheck.Proper (check : ConfigCheck) : Prop where
  named (debug : String → String) (e : Env) (m : ErrorText) : check.fault e = some m →
    ∃ rest, m.display debug = check.variable ++ rest
  reads (e e' : Env) : e check.variable = e' check.variable → e check.guard = e' check.guard →
    check.fault e = check.fault e'

/-- A check with one message. -/
theorem ConfigCheck.Proper.of_ite {check : ConfigCheck} {P : Env → Prop} [DecidablePred P]
    (rest : String) (hf : ∀ e, check.fault e = if P e then some (.plain (check.variable ++ rest)) else none)
    (hP : ∀ e e', e check.variable = e' check.variable → e check.guard = e' check.guard → (P e ↔ P e')) :
    check.Proper where
  named debug e m h := by
    rw [hf] at h
    split at h <;> cases h
    exact ⟨rest, rfl⟩
  reads e e' hv hg := by
    rw [hf, hf]
    exact if_congr (hP e e' hv hg) rfl rfl

theorem natsCheck_proper (key : String) : (natsCheck key).Proper :=
  .of_ite _ (fun _ => rfl) fun e e' hv hg => by
    rw [show e key = e' key from hv, show e "INPUT_TRANSPORT" = e' "INPUT_TRANSPORT" from hg]

theorem tlsCheck_proper (key : String) : (tlsCheck key).Proper :=
  .of_ite _ (fun _ => rfl) fun e e' hv hg => by
    rw [show e key = e' key from hv, show e "TLS_ENABLED" = e' "TLS_ENABLED" from hg]

theorem positiveCheck_proper {T : Type} [FromStr T] [DecidableEq T] (zero : T) (key : String) :
    (positiveCheck zero key).Proper :=
  .of_ite _ (fun _ => rfl) fun e e' hv _ => by rw [show e key = e' key from hv]

theorem numberCheck_proper (T : Type) [FromStr T] (key : String) : (numberCheck T key).Proper :=
  .of_ite (" must be a valid " ++ FromStr.typeName T)
    (fun e => by rw [← String.append_assoc]; rfl) fun e e' hv _ => by rw [show e key = e' key from hv]

theorem flagCheck_proper (key : String) : (flagCheck key).Proper where
  named debug e m h := by
    simp only [flagCheck, Config.parseBoolWithDefault] at h
    split at h
    · cases h
    · rename_i v _
      split at h
      · cases h
      · split at h <;> cases h
        exact ⟨" must be true or false, got " ++ debug v, (String.append_assoc ..)⟩
  reads e e' hv _ := by
    simp only [flagCheck, Config.parseBoolWithDefault, show e key = e' key from hv]

theorem transportCheck_proper : transportCheck.Proper where
  named _ e m h := by
    simp only [transportCheck, InputTransport.parse] at h
    split at h
    · cases h
    · split at h <;> cases h
      refine ⟨" must be one of: nats, unix_socket (got '" ++
        ((e "INPUT_TRANSPORT").getD "nats" ++ "')"), ?_⟩
      rw [← String.append_assoc, ← String.append_assoc]
      exact congrArg (fun text => text ++ (e "INPUT_TRANSPORT").getD "nats" ++ "')") (by decide +kernel)
  reads e e' hv _ := by
    simp only [transportCheck, show e "INPUT_TRANSPORT" = e' "INPUT_TRANSPORT" from hv]

theorem configChecks_proper : ∀ check ∈ configChecks, check.Proper := by
  simp only [configChecks, natsChecks, unixSocketChecks, serverChecks, tlsChecks, List.cons_append,
    List.nil_append, List.forall_mem_cons]
  exact ⟨transportCheck_proper, natsCheck_proper _, natsCheck_proper _, numberCheck_proper _ _,
    positiveCheck_proper _ _, numberCheck_proper _ _, numberCheck_proper _ _, numberCheck_proper _ _,
    positiveCheck_proper _ _, numberCheck_proper _ _, positiveCheck_proper _ _, numberCheck_proper _ _,
    numberCheck_proper _ _, numberCheck_proper _ _, flagCheck_proper _, tlsCheck_proper _,
    tlsCheck_proper _, tlsCheck_proper _, numberCheck_proper _ _, nofun⟩

/-- **What is refused.** An environment is refused with the message of the first
check that finds a fault, whatever `{:?}` shows of a value. The message begins
with the variable of the check, which depends on this variable and the one that
makes it required. -/
theorem refused_by_first_fault (debug : String → String) (e : Env) (m : String) :
    ((Config.fromLookup e).mapError (ErrorText.display debug) = .error m ↔
      ∃ before check after, configChecks = before ++ check :: after ∧
        (check.fault e).map (ErrorText.display debug) = some m ∧ ∀ c ∈ before, c.fault e = none) ∧
    ∀ check ∈ configChecks, check.Proper := by
  refine ⟨?_, configChecks_proper⟩
  rw [mapError_eq_error_iff]
  simp only [← failure_eq_some_iff, failure_fromLookup, firstFault_eq_some_iff, Option.map_eq_some_iff]
  constructor
  · rintro ⟨text, ⟨before, check, after, hs, hf, hb⟩, hm⟩
    exact ⟨before, check, after, hs, ⟨text, hf, hm⟩, hb⟩
  · rintro ⟨before, check, after, hs, ⟨text, hf, hm⟩, hb⟩
    exact ⟨text, ⟨before, check, after, hs, hf, hb⟩, hm⟩

/-! ## What is accepted -/

/-- What `from_lookup` promises of a configuration. -/
structure Config.Valid (c : Config) : Prop where
  maxLineBytes : c.unixSocketMaxLineBytes.val ≠ 0
  queueSize : c.iec104QueueSize ≠ 0
  maxAge (age : Duration) : c.iec104MaxAge = some age → ∃ secs : UInt64, secs ≠ 0 ∧ age = .fromSecs secs
  consumer : c.inputTransport = .unixSocket → c.natsStream = "" ∧ c.natsConsumer = ""
  tls : c.tlsEnabled = true →
    c.tlsCertPath.isSome ∧ c.tlsKeyPath.isSome ∧ c.tlsCaCertPath.isSome

theorem bailIf_ok {cond : Bool} {message : String} (h : Config.bailIf cond message = .ok ()) :
    cond = false := by
  cases cond with
  | false => rfl
  | true => cases h

theorem requirePresent_ok {value : Option String} {key : String}
    (h : Config.requirePresent value key = .ok ()) : value.isSome := by
  cases value with
  | none => cases h
  | some => rfl

theorem maxLineBytes_valid {parts : UnixSocketConfigParts}
    (h : Config.loadUnixSocketConfig e = .ok parts) : parts.unixSocketMaxLineBytes.val ≠ 0 := by
  obtain ⟨n, hm, h⟩ := except_bind_ok h
  obtain ⟨n', -, hm⟩ := except_bind_ok hm
  obtain ⟨_, hb, hm⟩ := except_bind_ok hm
  obtain ⟨_, -, h⟩ := except_bind_ok h
  obtain ⟨_, -, h⟩ := except_bind_ok h
  cases hm
  cases h
  exact of_decide_eq_false (bailIf_ok hb)

theorem serverParts_valid {parts : ServerConfigParts} (h : Config.loadServerConfig e = .ok parts) :
    parts.iec104QueueSize ≠ 0 ∧
      ∀ age, parts.iec104MaxAge = some age → ∃ secs : UInt64, secs ≠ 0 ∧ age = .fromSecs secs := by
  obtain ⟨size, -, h⟩ := except_bind_ok h
  obtain ⟨_, hsize, h⟩ := except_bind_ok h
  obtain ⟨maxAge, -, h⟩ := except_bind_ok h
  obtain ⟨_, hage, h⟩ := except_bind_ok h
  obtain ⟨_, -, h⟩ := except_bind_ok h
  obtain ⟨_, -, h⟩ := except_bind_ok h
  obtain ⟨_, -, h⟩ := except_bind_ok h
  obtain ⟨_, -, h⟩ := except_bind_ok h
  cases h
  refine ⟨of_decide_eq_false (bailIf_ok hsize), fun age ha => ?_⟩
  obtain ⟨secs, hs, rfl⟩ := Option.map_eq_some_iff.mp ha
  refine ⟨secs, fun hz => ?_, rfl⟩
  have hne := of_decide_eq_false (bailIf_ok hage)
  exact hne (by rw [hs, hz])

theorem natsParts_valid {parts : NatsConfigParts}
    (h : Config.loadNatsConfig e .unixSocket = .ok parts) :
    parts.natsStream = "" ∧ parts.natsConsumer = "" := by
  cases h
  exact ⟨rfl, rfl⟩

theorem tlsParts_valid {parts : TlsConfigParts} (h : Config.loadTlsConfig e = .ok parts)
    (ht : parts.tlsEnabled = true) :
    parts.tlsCertPath.isSome ∧ parts.tlsKeyPath.isSome ∧ parts.tlsCaCertPath.isSome := by
  obtain ⟨_, hv, h⟩ := except_bind_ok h
  obtain ⟨_, -, h⟩ := except_bind_ok h
  cases h
  unfold Config.validateTlsPaths at hv
  rw [show Config.isTruthy (e "TLS_ENABLED") = true from ht] at hv
  obtain ⟨_, h₁, hv⟩ := except_bind_ok hv
  obtain ⟨_, h₂, h₃⟩ := except_bind_ok hv
  exact ⟨requirePresent_ok h₁, requirePresent_ok h₂, requirePresent_ok h₃⟩

theorem valid_of_accepted {c : Config} (h : Config.fromLookup e = .ok c) : c.Valid := by
  obtain ⟨⟨transport, nats, unixSocket, server, tls⟩, ⟨-, hn, hu, hs, hl⟩, rfl⟩ :=
    fromLookup_ok_iff.mp h
  refine ⟨maxLineBytes_valid hu, (serverParts_valid hs).1, (serverParts_valid hs).2, fun ht => ?_,
    tlsParts_valid hl⟩
  obtain rfl : transport = .unixSocket := ht
  exact natsParts_valid hn

/-! ## Settings -/

def boolSetting (b : Bool) : String := if b then "true" else "false"

/-- The environment that gives a configuration, variable by variable. -/
def Config.settings (c : Config) : List (String × Option String) :=
  [("INPUT_TRANSPORT", some c.inputTransport.asStr), ("NATS_URL", some c.natsUrl),
    ("NATS_STREAM", some c.natsStream), ("NATS_CONSUMER", some c.natsConsumer),
    ("NATS_SUBJECT_FILTER", c.natsSubjectFilter), ("NATS_CREDENTIALS", c.natsCredentialsPath),
    ("UNIX_SOCKET_PATH", some c.unixSocketPath),
    ("UNIX_SOCKET_ALLOWED_UID", c.unixSocketAllowedUid.map fun n => n.toNat.repr),
    ("UNIX_SOCKET_ALLOWED_GID", c.unixSocketAllowedGid.map fun n => n.toNat.repr),
    ("UNIX_SOCKET_MAX_LINE_BYTES", some c.unixSocketMaxLineBytes.val.toNat.repr),
    ("IEC104_BIND_ADDR", some c.iec104BindAddr), ("IEC104_PORT", some c.iec104Port.toNat.repr),
    ("IEC104_CA", some c.iec104DefaultCa.toNat.repr),
    ("IEC104_GI_ONLY", some (boolSetting c.iec104GiOnly)),
    ("IEC104_TIMESTAMPS", some (boolSetting c.iec104Timestamps)),
    ("IEC104_MAX_AGE_SECONDS", c.iec104MaxAge.map fun age => (age.asNanos / 1000000000).repr),
    ("IEC104_QUEUE_SIZE", some c.iec104QueueSize.toNat.repr),
    ("METRICS_PORT", some c.metricsPort.toNat.repr), ("TLS_ENABLED", some (boolSetting c.tlsEnabled)),
    ("TLS_CERT_PATH", c.tlsCertPath), ("TLS_KEY_PATH", c.tlsKeyPath),
    ("TLS_CA_CERT_PATH", c.tlsCaCertPath), ("TLS_PORT", some c.tlsPort.toNat.repr)]

def Config.environ (c : Config) : Env := fun key => (c.settings.lookup key).join

/-- The digits of a number parse as this number. -/
theorem parseUnsigned_repr {max n : Nat} (h : n ≤ max) : parseUnsigned max n.repr = some n := by
  have hdigits : ∀ ch ∈ Nat.toDigits 10 n, ch.isDigit :=
    fun ch hc => Nat.isDigit_of_mem_toDigits (by decide) (by decide) hc
  have hsign : ∀ rest, Nat.toDigits 10 n ≠ '+' :: rest := by
    intro rest hr
    exact absurd (hdigits '+' (by rw [hr]; exact List.mem_cons_self)) (by decide)
  have hfold : (Nat.toDigits 10 n).foldl (fun n c => 10 * n + (c.toNat - 48)) 0 = n := by
    have := Nat.ofDigitChars_ten_toDigits (n := n)
    rwa [Nat.ofDigitChars_eq_foldl] at this
  unfold parseUnsigned
  rw [Nat.toList_repr]
  simp only [hfold]
  exact if_pos ⟨Nat.toDigits_ne_nil, List.all_eq_true.mpr hdigits, h⟩

theorem parse_repr16 (n : UInt16) : FromStr.parse n.toNat.repr = some n := by
  show (parseUnsigned _ _).map UInt16.ofNat = _
  rw [parseUnsigned_repr (Nat.le_of_lt_succ n.toNat_lt), Option.map_some, UInt16.ofNat_toNat]

theorem parse_repr32 (n : UInt32) : FromStr.parse n.toNat.repr = some n := by
  show (parseUnsigned _ _).map UInt32.ofNat = _
  rw [parseUnsigned_repr (Nat.le_of_lt_succ n.toNat_lt), Option.map_some, UInt32.ofNat_toNat]

theorem parse_repr64 (n : UInt64) : FromStr.parse n.toNat.repr = some n := by
  show (parseUnsigned _ _).map UInt64.ofNat = _
  rw [parseUnsigned_repr (Nat.le_of_lt_succ n.toNat_lt), Option.map_some, UInt64.ofNat_toNat]

theorem parse_reprSize (n : Usize) : FromStr.parse n.val.toNat.repr = some n := by
  show (parseUnsigned _ _).map _ = _
  rw [parseUnsigned_repr (Nat.le_of_lt_succ n.val.toNat_lt), Option.map_some, UInt64.ofNat_toNat]

theorem parseWithDefault_of_some {T : Type} [FromStr T] {key default v : String} {n : T}
    (he : e key = some v) (hp : FromStr.parse v = some n) :
    Config.parseWithDefault T e key default = .ok n := by
  simp only [Config.parseWithDefault, he, Option.getD_some, hp]

theorem parseOptional_of_map {T : Type} [FromStr T] {key : String} {print : T → String} {n : Option T}
    (he : e key = n.map print) (hp : ∀ n, FromStr.parse (print n) = some n) :
    Config.parseOptional T e key = .ok n := by
  cases n with
  | none => simp only [Config.parseOptional, he, Option.map_none]
  | some n => simp only [Config.parseOptional, he, Option.map_some, hp]

theorem isTruthy_boolSetting (b : Bool) : Config.isTruthy (some (boolSetting b)) = b := by
  cases b <;> decide +kernel

theorem parseBool_boolSetting {key : String} {b : Bool} (he : e key = some (boolSetting b)) (d : Bool) :
    Config.parseBoolWithDefault e key d = .ok b := by
  simp only [Config.parseBoolWithDefault, he]
  cases b
  · rw [show (boolSetting false).toLower = "false" by decide +kernel]
    simp
  · rw [show (boolSetting true).toLower = "true" by decide +kernel]
    simp

/-- The whole seconds of an age are read back. -/
theorem secs_repr {age : Option Duration}
    (h : ∀ a, age = some a → ∃ secs : UInt64, secs ≠ 0 ∧ a = .fromSecs secs) :
    ∃ secs : Option UInt64, secs ≠ some 0 ∧ age = secs.map .fromSecs ∧
      age.map (fun a => (a.asNanos / 1000000000).repr) = secs.map fun n => n.toNat.repr := by
  cases age with
  | none => exact ⟨none, nofun, rfl, rfl⟩
  | some a =>
    obtain ⟨secs, hz, rfl⟩ := h a rfl
    refine ⟨some secs, fun hs => hz (Option.some.inj hs), rfl, ?_⟩
    simp [Duration.fromSecs]

section

variable (c : Config)

theorem loads_transport : Config.loadInputTransport c.environ = .ok c.inputTransport := by
  unfold Config.loadInputTransport
  rw [show c.environ "INPUT_TRANSPORT" = some c.inputTransport.asStr from rfl]
  cases c.inputTransport <;> rfl

theorem loads_nats (h : c.inputTransport = .unixSocket → c.natsStream = "" ∧ c.natsConsumer = "") :
    Config.loadNatsConfig c.environ c.inputTransport = .ok
      ⟨c.natsUrl, c.natsStream, c.natsConsumer, c.natsSubjectFilter, c.natsCredentialsPath⟩ := by
  unfold Config.loadNatsConfig
  cases ht : c.inputTransport with
  | nats => rfl
  | unixSocket =>
    obtain ⟨hs, hc⟩ := h ht
    rw [hs, hc]
    rfl

theorem loads_unixSocket (h : c.unixSocketMaxLineBytes.val ≠ 0) :
    Config.loadUnixSocketConfig c.environ = .ok ⟨c.unixSocketPath, c.unixSocketAllowedUid,
      c.unixSocketAllowedGid, c.unixSocketMaxLineBytes⟩ := by
  have hmax : Config.loadUnixSocketMaxLineBytes c.environ = .ok c.unixSocketMaxLineBytes := by
    unfold Config.loadUnixSocketMaxLineBytes
    rw [parseWithDefault_of_some (show c.environ "UNIX_SOCKET_MAX_LINE_BYTES" = some _ from rfl)
      (parse_reprSize _)]
    simp only [bind, Except.bind, h, decide_false, Config.bailIf]
    rfl
  unfold Config.loadUnixSocketConfig
  rw [hmax, parseOptional_of_map (show c.environ "UNIX_SOCKET_ALLOWED_UID" = _ from rfl) parse_repr32,
    parseOptional_of_map (show c.environ "UNIX_SOCKET_ALLOWED_GID" = _ from rfl) parse_repr32]
  rfl

theorem loads_server (hq : c.iec104QueueSize ≠ 0) (ha : ∀ age, c.iec104MaxAge = some age →
    ∃ secs : UInt64, secs ≠ 0 ∧ age = .fromSecs secs) :
    Config.loadServerConfig c.environ = .ok ⟨c.iec104BindAddr, c.iec104Port, c.iec104DefaultCa,
      c.iec104GiOnly, c.metricsPort, c.iec104QueueSize, c.iec104Timestamps, c.iec104MaxAge⟩ := by
  obtain ⟨secs, hz, hage, hrepr⟩ := secs_repr ha
  unfold Config.loadServerConfig
  rw [parseWithDefault_of_some (show c.environ "IEC104_QUEUE_SIZE" = some _ from rfl) (parse_repr16 _),
    parseOptional_of_map (show c.environ "IEC104_MAX_AGE_SECONDS" = _ from hrepr) parse_repr64,
    parseWithDefault_of_some (show c.environ "IEC104_PORT" = some _ from rfl) (parse_repr16 _),
    parseWithDefault_of_some (show c.environ "IEC104_CA" = some _ from rfl) (parse_repr16 _),
    parseWithDefault_of_some (show c.environ "METRICS_PORT" = some _ from rfl) (parse_repr16 _),
    parseBool_boolSetting (show c.environ "IEC104_TIMESTAMPS" = some _ from rfl),
    show c.environ "IEC104_GI_ONLY" = some (boolSetting c.iec104GiOnly) from rfl, isTruthy_boolSetting, hage]
  simp only [bind, Except.bind, hq, hz, decide_false, Config.bailIf]
  rfl

theorem loads_tls (h : c.tlsEnabled = true →
    c.tlsCertPath.isSome ∧ c.tlsKeyPath.isSome ∧ c.tlsCaCertPath.isSome) :
    Config.loadTlsConfig c.environ = .ok
      ⟨c.tlsEnabled, c.tlsCertPath, c.tlsKeyPath, c.tlsCaCertPath, c.tlsPort⟩ := by
  have hpaths : Config.validateTlsPaths c.tlsEnabled c.tlsCertPath c.tlsKeyPath c.tlsCaCertPath =
      .ok () := by
    cases ht : c.tlsEnabled with
    | false => rfl
    | true =>
      obtain ⟨h₁, h₂, h₃⟩ := h ht
      obtain ⟨cert, h₁⟩ := Option.isSome_iff_exists.mp h₁
      obtain ⟨key, h₂⟩ := Option.isSome_iff_exists.mp h₂
      obtain ⟨ca, h₃⟩ := Option.isSome_iff_exists.mp h₃
      rw [h₁, h₂, h₃]
      rfl
  unfold Config.loadTlsConfig
  rw [show c.environ "TLS_ENABLED" = some (boolSetting c.tlsEnabled) from rfl, isTruthy_boolSetting,
    show c.environ "TLS_CERT_PATH" = c.tlsCertPath from rfl,
    show c.environ "TLS_KEY_PATH" = c.tlsKeyPath from rfl,
    show c.environ "TLS_CA_CERT_PATH" = c.tlsCaCertPath from rfl,
    parseWithDefault_of_some (show c.environ "TLS_PORT" = some _ from rfl) (parse_repr16 _)]
  simp only [hpaths]
  rfl

end

theorem accepted_of_valid {c : Config} (h : c.Valid) : Config.fromLookup c.environ = .ok c :=
  fromLookup_ok_iff.mpr ⟨⟨_, _, _, _, _⟩, ⟨loads_transport c, loads_nats c h.consumer,
    loads_unixSocket c h.maxLineBytes, loads_server c h.queueSize h.maxAge, loads_tls c h.tls⟩, rfl⟩

/-- **What is accepted.** The configurations that some environment gives are the
valid ones, and each is given by its own settings. -/
theorem valid_iff_accepted (c : Config) :
    ((∃ e, Config.fromLookup e = .ok c) ↔ c.Valid) ∧
      (c.Valid → Config.fromLookup c.environ = .ok c) :=
  ⟨⟨fun ⟨_, h⟩ => valid_of_accepted h, fun h => ⟨_, accepted_of_valid h⟩⟩, accepted_of_valid⟩

end Iec104Bridge
