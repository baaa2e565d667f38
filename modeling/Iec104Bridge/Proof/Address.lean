import Iec104Bridge.Proof.Frames

/-!
# Addresses of data frames

`validate_message` bounds the addresses a message gives itself, and the casts
keep them (`frame_address`). The default Common Address is bounded by nothing
but its type: every data frame of a bridge is addressable exactly when
`IEC104_CA` is (`frames_addressable_iff`).
-/

namespace Iec104Bridge

open Framework

variable {ι : Type} {cfg : Settings} {s : State ι} {w : List (Effect ι)}

/-- The addresses of the ASDU are those of IEC-104. -/
structure Addressable (asdu : Asdu) : Prop where
  ca : 1 ≤ asdu.ca.toInt ∧ asdu.ca.toInt ≤ 65534
  ioa : 1 ≤ asdu.object.ioa.toInt ∧ asdu.object.ioa.toInt ≤ 16777215

/-- The casts keep the addresses of the point. -/
structure AddressKept (defaultCa : UInt16) (point : CachedPoint) (asdu : Asdu) : Prop where
  ca : asdu.ca.toInt = (point.message.ca.getD defaultCa).toNat
  ioa : asdu.object.ioa.toInt = point.message.ioa.toNat

theorem FrameOf.address {now : OffsetDateTime} {asdu : Asdu} {point : CachedPoint}
    (h : FrameOf cfg now asdu point) (hv : point.message.Valid) :
    AddressKept cfg.defaultCa point asdu := by
  obtain ⟨cot, -, rfl⟩ := h
  have hi := hv.ioa_range
  exact ⟨toInt_u16AsI32 _, toInt_u32AsI32 (show point.message.ioa.toNat < 2147483648 by omega)⟩

theorem AddressKept.addressable {defaultCa : UInt16} {point : CachedPoint} {asdu : Asdu}
    (h : AddressKept defaultCa point asdu) (hv : point.message.Valid)
    (hd : 1 ≤ defaultCa.toNat ∧ defaultCa.toNat ≤ 65534) : Addressable asdu where
  ca := by
    rw [h.ca]
    cases hca : point.message.ca with
    | none =>
      rw [Option.getD_none]
      omega
    | some ca =>
      have := hv.ca_range hca
      rw [Option.getD_some]
      omega
  ioa := by
    have := hv.ioa_range
    rw [h.ioa]
    omega

/-- Every data frame of a run keeps the address of a valid message. -/
theorem frame_address (h : (process ι cfg).Run w s) {e : Effect ι} (he : e ∈ w)
    {now : OffsetDateTime} {asdu : Asdu} (hf : e.frame = some (now, asdu)) :
    ∃ point, point.message.Valid ∧ AddressKept cfg.defaultCa point asdu := by
  obtain ⟨point, -, hv, hp⟩ := arrival_of_frame h he hf
  exact ⟨point, hv, hp.address hv⟩

/-- The environment leaves `IEC104_CA` unset or sets it in the range `validate_ca` checks. -/
def Env.CaInRange (get : Env) : Prop :=
  ∀ text, get "IEC104_CA" = some text →
    ∃ ca : UInt16, FromStr.parse text = some ca ∧ 1 ≤ ca.toNat ∧ ca.toNat ≤ 65534

theorem caInRange_iff {get : Env} {config : Config} (h : Config.fromLookup get = .ok config) :
    get.CaInRange ↔ 1 ≤ config.iec104DefaultCa.toNat ∧ config.iec104DefaultCa.toNat ≤ 65534 := by
  have hca := fromLookup_ca h
  cases hg : get "IEC104_CA" with
  | none =>
    rw [hg, Option.getD_none] at hca
    obtain rfl' : (1 : UInt16) = config.iec104DefaultCa := by
      have h1 : FromStr.parse "1" = some (1 : UInt16) := by decide
      rw [h1] at hca
      exact Option.some.inj hca
    rw [← rfl']
    simp [Env.CaInRange, hg]
  | some text =>
    rw [hg, Option.getD_some] at hca
    constructor
    · intro hr
      obtain ⟨ca, hp, hr⟩ := hr text hg
      rw [hp] at hca
      cases hca
      exact hr
    · intro hr text' ht
      rw [hg] at ht
      cases ht
      exact ⟨_, hca, hr⟩

/-- A bridge replays a point without a Common Address at its default one. -/
theorem exists_default_frame (cfg : Settings) (id : ι) : ∃ (w : List (Effect ι)) (s : State ι),
    (process ι cfg).Run w s ∧ ∃ e ∈ w, ∃ now asdu, e.frame = some (now, asdu) ∧
      asdu.ca = u16AsI32 cfg.defaultCa := by
  have h := Machine.run_of_exec (M := process ι cfg)
    [.task (.build true), .task (.receive id (.sample 100 true) (.sample 1)), .task .insert,
      .gi 0 (.request QOI_STATION), .gi 0 (.confirm true),
      .gi 0 (.lock (.sample 2) [⟨.sample 100 true, .sample 1⟩]), .gi 0 (.send true)] rfl
  refine ⟨_, _, h, _, List.mem_of_getLast? rfl, _, _, rfl, ?_⟩
  rw [replayPoint_eq]
  rfl

/-- With an accepted configuration, every data frame of every run is
addressable if and only if `IEC104_CA` is in range. -/
theorem frames_addressable_iff {get : Env} {config : Config} (server : Server) (id : ι)
    (h : Config.fromLookup get = .ok config) :
    (∀ w s, (process ι (.ofConfig config server)).Run w s → ∀ e ∈ w, ∀ now asdu,
        e.frame = some (now, asdu) → Addressable asdu ∧
          ∃ point, point.message.Valid ∧ AddressKept config.iec104DefaultCa point asdu) ↔
      get.CaInRange := by
  rw [caInRange_iff h]
  constructor
  · intro ha
    obtain ⟨w, s, hr, e, he, now, asdu, hf, hca⟩ :=
      exists_default_frame (.ofConfig config server) id
    have := (ha w s hr e he now asdu hf).1.ca
    have hd : (Settings.ofConfig config server).defaultCa = config.iec104DefaultCa := rfl
    rw [hca, hd, toInt_u16AsI32] at this
    omega
  · intro hd w s hr e he now asdu hf
    obtain ⟨point, hv, hp⟩ := frame_address hr he hf
    exact ⟨hp.addressable hv hd, point, hv, hp⟩

/-- An environment that sets the variables without a default, and `IEC104_CA`. -/
def Env.sample (ca : String) : Env := fun name =>
  if name = "NATS_STREAM" then some "points"
  else if name = "NATS_CONSUMER" then some "bridge"
  else if name = "IEC104_CA" then some ca
  else none

theorem frames_addressable_iff_sample : ∃ config, Config.fromLookup (.sample "42") = .ok config ∧
    ((∀ w s, (process Nat (.ofConfig config .reference)).Run w s → ∀ e ∈ w, ∀ now asdu,
        e.frame = some (now, asdu) → Addressable asdu ∧
          ∃ point, point.message.Valid ∧ AddressKept config.iec104DefaultCa point asdu) ↔
      (Env.sample "42").CaInRange) :=
  ⟨_, rfl, frames_addressable_iff .reference 0 rfl⟩

/-- With `IEC104_CA=0` a point without a Common Address is sent at address 0,
spontaneously and in a replay. -/
theorem default_ca_zero : ∃ config, Config.fromLookup (.sample "0") = .ok config ∧
    ∃ w s, (process Nat (.ofConfig config .reference)).Run w s ∧
      (∃ now asdu, .handed 0 now asdu ∈ w ∧ asdu.ca.toInt = 0 ∧ ¬ Addressable asdu) ∧
      ∃ now asdu, .giData 0 now asdu true ∈ w ∧ asdu.ca.toInt = 0 ∧ ¬ Addressable asdu := by
  refine ⟨_, rfl, _, _, Machine.run_of_exec
    [.task (.build true), .task (.receive 0 (.sample 100 true) (.sample 1)), .task .insert,
      .task .dispatch, .gi 0 (.request QOI_STATION), .gi 0 (.confirm true),
      .gi 0 (.lock (.sample 2) [⟨.sample 100 true, .sample 1⟩]), .gi 0 (.send true)] rfl, ?_⟩
  exact ⟨⟨_, _, .tail _ (.tail _ (.tail _ (.head _))), rfl, fun h => absurd h.ca.1 (by decide)⟩,
    _, _, .tail _ (.tail _ (.tail _ (.tail _ (.tail _ (.tail _ (.tail _ (.head _))))))), rfl,
    fun h => absurd h.ca.1 (by decide)⟩

end Iec104Bridge
