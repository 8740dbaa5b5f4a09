/-
When the sizes of a proxy front fit into words.

Each of the sizes has a value exactly when the number it stands for is a word (`poolBuffers?_eq_some_iff`,
`connectionBytes?_eq_some_iff`, `memory?_eq_some_iff`). The last one is the greatest if there are any connections, so it decides
for all three.

Settings that are accepted have sizes that are not zero, and nothing else is known of these: no size is too large to be
accepted. So the sizes fit for some accepted settings and not for others.

- `memory_lt`: a limit that would be enough.
- `validate_of_sizes`: no size is refused but zero.
- `sizes_fit_iff`: for accepted settings, when the sizes fit and what a word keeps of them.
- `accepted_sizes_overflow`: accepted settings whose sizes do not fit.
-/
import EdgeTunnel.Proofs.Orchestrator.Refusals
import EdgeTunnel.Proxy.Sizes

namespace EdgeTunnel

/-! ## Sizes -/

namespace Proxy.Config

variable {c : Config} {w : UInt64}

theorem poolBuffers?_eq_some_iff : c.poolBuffers? = some w ↔ c.maxConnections.toNat * 2 = w.toNat :=
  Word.mul?_eq_some_iff

theorem connectionBytes?_eq_some_iff : c.connectionBytes? = some w ↔ c.connectionBytes = w.toNat := by
  rw [connectionBytes?, Option.bind_eq_some_iff, connectionBytes]
  simp only [Word.mul?_eq_some_iff, Word.add?_eq_some_iff]
  constructor
  · rintro ⟨buffers, hbuffers, hbytes⟩
    rw [← hbytes, ← hbuffers]
    rfl
  · intro hbytes
    have hfits : c.bufferSize.toNat * 2 < 2 ^ 64 := Nat.lt_of_le_of_lt (Nat.le_add_right _ 512) (hbytes ▸ w.toNat_lt)
    obtain ⟨buffers, hbuffers⟩ := Word.exists_toNat_iff.2 hfits
    exact ⟨buffers, hbuffers, hbuffers ▸ hbytes⟩

/-- the bytes of one connection are at most those of all, if there are any -/
theorem connectionBytes_le_memory (hm : c.maxConnections ≠ 0) : c.connectionBytes ≤ c.memory :=
  Nat.le_mul_of_pos_left _ (Nat.pos_of_ne_zero fun h0 => hm (UInt64.toNat_inj.1 h0))

/-- and two buffers for each connection are fewer than its bytes -/
theorem buffers_le_memory (c : Config) : c.maxConnections.toNat * 2 ≤ c.memory :=
  Nat.mul_le_mul_left _ (Nat.le_trans (by decide : 2 ≤ 512) (Nat.le_add_left _ _))

theorem memory?_eq_some_iff (hm : c.maxConnections ≠ 0) : c.memory? = some w ↔ c.memory = w.toNat := by
  rw [memory?, Option.bind_eq_some_iff]
  simp only [connectionBytes?_eq_some_iff, Word.mul?_eq_some_iff]
  constructor
  · rintro ⟨bytes, hbytes, hmemory⟩
    rw [memory, hbytes, hmemory]
  · intro hmemory
    have hfits : c.connectionBytes < 2 ^ 64 := Nat.lt_of_le_of_lt (connectionBytes_le_memory hm) (hmemory ▸ w.toNat_lt)
    obtain ⟨bytes, hbytes⟩ := Word.exists_toNat_iff.2 hfits
    refine ⟨bytes, hbytes, ?_⟩
    rw [← hbytes, ← hmemory, memory]

/-- a word keeps the remainder of the size -/
theorem toNat_memoryWord (c : Config) : c.memoryWord.toNat = c.memory % 2 ^ 64 := by
  rw [memoryWord, UInt64.toNat_mul, UInt64.toNat_add, UInt64.toNat_mul, Nat.mod_add_mod, Nat.mul_mod_mod]
  rfl

/-- **A limit that would be enough**: fewer than 2^32 connections with buffers of fewer than 2^31 - 256 bytes. -/
theorem memory_lt (hm : c.maxConnections.toNat < 2 ^ 32) (hb : c.bufferSize.toNat < 2 ^ 31 - 256) : c.memory < 2 ^ 64 := by
  have hbytes : c.connectionBytes ≤ 2 ^ 32 := by
    rw [connectionBytes]
    omega
  calc c.memory ≤ c.maxConnections.toNat * 2 ^ 32 := Nat.mul_le_mul_left _ hbytes
    _ < 2 ^ 32 * 2 ^ 32 := Nat.mul_lt_mul_of_pos_right hm (by decide)
    _ = 2 ^ 64 := by decide

end Proxy.Config

/-! ## Accepted settings -/

namespace Settings

theorem proxyLimit?_eq_none_iff {p : ProxySettings} :
    proxyLimit? p = none ↔ p.maxConnections ≠ 0 ∧ p.bufferSize ≠ 0 ∧ p.idleSecs ≠ 0 := by
  unfold proxyLimit?
  split_ifs with hsizes hidle
  · simp only [false_iff]
    tauto
  · simp only [false_iff]
    tauto
  · rw [not_or] at hsizes
    exact iff_of_true rfl ⟨hsizes.1, hsizes.2, hidle⟩

/-- the proxy of accepted settings is within its limits -/
theorem proxyLimit?_of_validate {s : Settings} {t : Topology} (h : s.validate = .ok t) : proxyLimit? s.proxy = none := by
  have hlimit := (of_validate h).1
  unfold badLimit? at hlimit
  split at hlimit
  · cases hlimit
  · exact hlimit

/-- the same settings with a proxy of other sizes -/
def withSizes (s : Settings) (maxConnections bufferSize : UInt64) : Settings :=
  { s with proxy := { s.proxy with maxConnections, bufferSize } }

/-- **No size is refused but zero.** -/
theorem validate_of_sizes {s : Settings} {t : Topology} (h : s.validate = .ok t) {maxConnections bufferSize : UInt64}
    (hm : maxConnections ≠ 0) (hb : bufferSize ≠ 0) : (s.withSizes maxConnections bufferSize).validate = .ok t := by
  have hold := proxyLimit?_of_validate h
  have hidle := (proxyLimit?_eq_none_iff.1 hold).2.2
  have hnew : proxyLimit? (s.withSizes maxConnections bufferSize).proxy = none := proxyLimit?_eq_none_iff.2 ⟨hm, hb, hidle⟩
  have hlimits : (s.withSizes maxConnections bufferSize).badLimit? = s.badLimit? := by
    rw [badLimit?, badLimit?, hnew, hold]
    rfl
  have hregion : (s.withSizes maxConnections bufferSize).region = s.region := rfl
  rw [validate, hlimits, hregion]
  exact h

/-- **When the sizes of accepted settings fit.**
- All three fit exactly when the bytes of all connections do, and then each is the number it stands for.
- The estimate that is checked is the one that is reported, and a word keeps the remainder: all of the number exactly when it
  fits.
- Accepted settings are still accepted with any other sizes but zero, for the same topology. -/
theorem sizes_fit_iff {s : Settings} {t : Topology} (h : s.validate = .ok t) (listen : SocketAddress) :
    let c := s.proxy.config listen
    (c.poolBuffers?.isSome ∧ c.connectionBytes?.isSome ∧ c.memory?.isSome ↔ c.memory < 2 ^ 64) ∧
    (∀ w, (c.poolBuffers? = some w ↔ c.maxConnections.toNat * 2 = w.toNat) ∧
      (c.connectionBytes? = some w ↔ c.connectionBytes = w.toNat) ∧ (c.memory? = some w ↔ c.memory = w.toNat)) ∧
    c.memory? = c.memoryEstimate ∧
    c.memoryWord.toNat = c.memory % 2 ^ 64 ∧ (c.memoryWord.toNat = c.memory ↔ c.memory < 2 ^ 64) ∧
    ∀ maxConnections bufferSize, maxConnections ≠ 0 → bufferSize ≠ 0 →
      (s.withSizes maxConnections bufferSize).validate = .ok t := by
  intro c
  have hm : c.maxConnections ≠ 0 := (proxyLimit?_eq_none_iff.1 (proxyLimit?_of_validate h)).1
  have hword := c.toNat_memoryWord
  refine ⟨?_, ?_, ?_, hword, ?_, ?_⟩
  · simp only [Option.isSome_iff_exists, Proxy.Config.poolBuffers?_eq_some_iff,
      Proxy.Config.connectionBytes?_eq_some_iff, Proxy.Config.memory?_eq_some_iff hm, Word.exists_toNat_iff]
    constructor
    · rintro ⟨-, -, hfits⟩
      exact hfits
    · intro hfits
      exact ⟨Nat.lt_of_le_of_lt c.buffers_le_memory hfits,
        Nat.lt_of_le_of_lt (Proxy.Config.connectionBytes_le_memory hm) hfits, hfits⟩
  · intro w
    exact ⟨Proxy.Config.poolBuffers?_eq_some_iff, Proxy.Config.connectionBytes?_eq_some_iff,
      Proxy.Config.memory?_eq_some_iff hm⟩
  · have hestimate : c.memoryEstimate = Word.ofNat? c.memory := rfl
    apply Option.ext
    intro w
    rw [hestimate, Proxy.Config.memory?_eq_some_iff hm, Word.ofNat?_eq_some_iff]
  · rw [hword]
    exact Nat.mod_eq_iff_lt (by decide)
  · intro maxConnections bufferSize hconnections hbuffers
    exact validate_of_sizes h hconnections hbuffers

/-- the sizes of the default settings fit -/
theorem sizes_fit_default :
    let s : Settings := {}
    let c := s.proxy.config s.bind
    s.validate = .ok .direct ∧ c.poolBuffers?.isSome ∧ c.connectionBytes?.isSome ∧ c.memory?.isSome := by
  intro s c
  have h : s.validate = .ok .direct := rfl
  exact ⟨h, (sizes_fit_iff h s.bind).1.2 (Proxy.Config.memory_lt (by decide) (by decide))⟩

/-- **Accepted sizes that do not fit**: one connection of 2^64 + 510 bytes is reported as one of no mebibytes, and with 2^63
connections there is no number of buffers. -/
theorem accepted_sizes_overflow :
    let s : Settings := ({} : Settings).withSizes 1 0x7fffffffffffffff
    let c := s.proxy.config s.bind
    let many : Settings := ({} : Settings).withSizes 0x8000000000000000 1
    s.validate = .ok .direct ∧ c.connectionBytes? = none ∧ c.memory? = none ∧
      Orchestrator.mebibytes c.memoryWord.toNat = "0.0" ∧ Orchestrator.mebibytes c.memory = "17592186044416.0" ∧
      many.validate = .ok .direct ∧ (many.proxy.config many.bind).poolBuffers? = none := by
  decide +kernel

end Settings

end EdgeTunnel
