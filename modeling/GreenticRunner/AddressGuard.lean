import Mathlib

/-! # Addresses a client secret is not sent to

    Two guards look at the addresses of outbound requests.  `classify` looks THROUGH the IPv6 forms
    that are routed to an IPv4 address; `is_forbidden` sees the mapped form only.

    * `Missed` — the addresses that the first refuses and the second does not know;
    * `guard_stronger_iff` — there are no others. -/

-- for every declaration this linter walks over all the others
set_option linter.dupNamespace false

namespace Greentic.NetGuard

/-- `Ipv4Addr`, by its octets. -/
structure Ipv4Addr where
  a : UInt8
  b : UInt8
  c : UInt8
  d : UInt8
deriving DecidableEq

/-- `Ipv6Addr`, by its segments. -/
structure Ipv6Addr where
  s0 : UInt16
  s1 : UInt16
  s2 : UInt16
  s3 : UInt16
  s4 : UInt16
  s5 : UInt16
  s6 : UInt16
  s7 : UInt16
deriving DecidableEq

/-- `IpAddr`. -/
inductive IpAddr where
  | v4 (ip : Ipv4Addr)
  | v6 (ip : Ipv6Addr)
deriving DecidableEq

/-! ## The standard library -/

/-- The IPv4 address in two segments. -/
def ofSegments (hi lo : UInt16) : Ipv4Addr :=
  ⟨(hi >>> 8).toUInt8, hi.toUInt8, (lo >>> 8).toUInt8, lo.toUInt8⟩

namespace Ipv4Addr

def isLoopback (ip : Ipv4Addr) : Bool := ip.a == 127

def isPrivate (ip : Ipv4Addr) : Bool :=
  ip.a == 10 || (ip.a == 172 && (16 ≤ ip.b && ip.b ≤ 31)) || (ip.a == 192 && ip.b == 168)

def isLinkLocal (ip : Ipv4Addr) : Bool := ip.a == 169 && ip.b == 254

def isUnspecified (ip : Ipv4Addr) : Bool := ip == ⟨0, 0, 0, 0⟩

def isBroadcast (ip : Ipv4Addr) : Bool := ip == ⟨255, 255, 255, 255⟩

def isMulticast (ip : Ipv4Addr) : Bool := 224 ≤ ip.a && ip.a ≤ 239

end Ipv4Addr

namespace Ipv6Addr

/-- `Ipv6Addr::LOCALHOST`. -/
def LOCALHOST : Ipv6Addr := ⟨0, 0, 0, 0, 0, 0, 0, 1⟩

/-- `Ipv6Addr::UNSPECIFIED`. -/
def UNSPECIFIED : Ipv6Addr := ⟨0, 0, 0, 0, 0, 0, 0, 0⟩

def isLoopback (ip : Ipv6Addr) : Bool := ip == LOCALHOST

def isUnspecified (ip : Ipv6Addr) : Bool := ip == UNSPECIFIED

def isMulticast (ip : Ipv6Addr) : Bool := ip.s0 &&& 0xff00 == 0xff00

/-- `to_ipv4_mapped`. -/
def toIpv4Mapped (ip : Ipv6Addr) : Option Ipv4Addr :=
  if ip.s0 == 0 && ip.s1 == 0 && ip.s2 == 0 && ip.s3 == 0 && ip.s4 == 0 && ip.s5 == 0xffff then
    some (ofSegments ip.s6 ip.s7)
  else none

end Ipv6Addr

def IpAddr.isLoopback : IpAddr → Bool
  | .v4 ip => ip.isLoopback
  | .v6 ip => ip.isLoopback

/-! ## The outbound policy -/

/-- `IpClass`. -/
inductive IpClass where
  | «public»
  | loopback
  | «private»
  | linkLocal
  | metadata
deriving DecidableEq

/-- `classify_v4`. -/
def classifyV4 (ip : Ipv4Addr) : IpClass :=
  if ip == ⟨169, 254, 169, 254⟩ || ip == ⟨100, 100, 100, 200⟩ || ip == ⟨168, 63, 129, 16⟩ ||
      ip == ⟨192, 0, 0, 192⟩ then .metadata
  else if ip.a == 169 && ip.b == 254 then .linkLocal
  else if ip.a == 127 then .loopback
  else if ip.a == 0 || ip.a == 10 || (ip.a == 172 && (16 ≤ ip.b && ip.b ≤ 31)) ||
      (ip.a == 192 && ip.b == 168) || (ip.a == 100 && (64 ≤ ip.b && ip.b ≤ 127)) then .private
  else .public

/-- `embedded_v4`. -/
def embeddedV4 (ip : Ipv6Addr) : Option Ipv4Addr :=
  match ip.toIpv4Mapped with
  | some mapped => some mapped
  | none =>
      if ip.s0 == 0x64 && ip.s1 == 0xff9b &&
          (ip.s2 == 0 && ip.s3 == 0 && ip.s4 == 0 && ip.s5 == 0) then
        some (ofSegments ip.s6 ip.s7)
      else if ip.s0 == 0x2002 then some (ofSegments ip.s1 ip.s2)
      else if (ip.s0 == 0 && ip.s1 == 0 && ip.s2 == 0 && ip.s3 == 0 && ip.s4 == 0 && ip.s5 == 0) &&
          (ip.s6 != 0 || 1 < ip.s7) then
        some (ofSegments ip.s6 ip.s7)
      else none

/-- `classify`. -/
def classify : IpAddr → IpClass
  | .v4 ip => classifyV4 ip
  | .v6 ip =>
      if ip == ⟨0xfd00, 0x0ec2, 0, 0, 0, 0, 0, 0x0254⟩ then .metadata
      else
        match embeddedV4 ip with
        | some v4 => classifyV4 v4
        | none =>
            if ip == Ipv6Addr.LOCALHOST then .loopback
            else if ip == Ipv6Addr.UNSPECIFIED || ip.s0 &&& 0xfe00 == 0xfc00 then .private
            else if ip.s0 &&& 0xffc0 == 0xfe80 then .linkLocal
            else .public

/-- `HttpGuard`, by its flags. -/
structure HttpGuard where
  allowMetadata : Bool
  denyPrivate : Bool

/-- `HttpGuard::check_ip`: what is blocked, if anything. -/
def HttpGuard.checkIp (guard : HttpGuard) (ip : IpAddr) : Except String Unit :=
  match classify ip with
  | .public => .ok ()
  | .metadata | .linkLocal =>
      if guard.allowMetadata then .ok () else .error "link-local or metadata address"
  | .loopback | .private =>
      if guard.denyPrivate then .error "loopback or private address" else .ok ()

/-! ## The guard of the token endpoint -/

/-- `forbidden_v4`. -/
def forbiddenV4 (ip : Ipv4Addr) : Bool :=
  ip.isLoopback || ip.isPrivate || ip.isLinkLocal || ip.isUnspecified || ip.isBroadcast ||
    ip.isMulticast || ip.a == 0 || (ip.a == 100 && (64 ≤ ip.b && ip.b ≤ 127)) ||
    (ip.a == 192 && ip.b == 0 && ip.c == 0) || (ip.a == 198 && (ip.b == 18 || ip.b == 19)) ||
    240 ≤ ip.a

/-- `forbidden_v6`. -/
def forbiddenV6 (ip : Ipv6Addr) : Bool :=
  ip.isLoopback || ip.isUnspecified || ip.isMulticast || ip.s0 &&& 0xfe00 == 0xfc00 ||
    ip.s0 &&& 0xffc0 == 0xfe80

/-- `is_forbidden`. -/
def isForbidden : IpAddr → Bool
  | .v4 ip => forbiddenV4 ip
  | .v6 ip =>
      match ip.toIpv4Mapped with
      | some mapped => forbiddenV4 mapped
      | none => forbiddenV6 ip

/-- The host of an endpoint: an address, or a name with what it resolves to. -/
inductive Host where
  | ip (ip : IpAddr)
  | domain (name : String) (resolved : Option (List IpAddr))

/-- An endpoint that was parsed: what the guard reads of it. -/
structure Endpoint where
  userinfo : Bool
  host : Option Host
  port : Option Nat
  scheme : String

/-- The addresses of an endpoint. -/
def Endpoint.addrs (e : Endpoint) : List IpAddr :=
  match e.host with
  | some (.ip ip) => [ip]
  | some (.domain _ (some addrs)) => addrs
  | _ => []

/-- `TokenProvider::vet_endpoint`: the reason of a refusal, or the addresses to connect to. -/
def vetEndpoint (loopbackOk : Bool) (endpoint : Option Endpoint) :
    Except String (Option (List IpAddr)) :=
  match endpoint with
  | none => .error "the endpoint is not a valid URL"
  | some e =>
      if e.userinfo then .error "the endpoint carries userinfo"
      else
        match e.host, e.port with
        | none, _ => .error "the endpoint has no host"
        | some _, none => .error "the endpoint has no port"
        | some host, some _ =>
            let addrs : Except String (List IpAddr × Bool) :=
              match host with
              | .ip ip => .ok ([ip], true)
              | .domain name none => .error s!"the host '{name}' did not resolve"
              | .domain name (some []) => .error s!"the host '{name}' did not resolve"
              | .domain _ (some addrs) => .ok (addrs, false)
            match addrs with
            | .error reason => .error reason
            | .ok (addrs, literal) =>
                let allLoopback := addrs.all IpAddr.isLoopback
                if e.scheme == "http" && !(loopbackOk && allLoopback) then
                  .error "only https endpoints are allowed"
                else if !(e.scheme == "http" || e.scheme == "https") then
                  .error s!"scheme '{e.scheme}' is not allowed"
                else if addrs.any fun ip => isForbidden ip && !(loopbackOk && ip.isLoopback) then
                  .error "the endpoint resolves to a private, loopback or link-local address"
                else .ok (if literal then none else some addrs)

/-! ## What is missed -/

/-- Azure's metadata address, plain or mapped, and the NAT64, 6to4 and IPv4-compatible forms of an
    address that is not public. -/
def Missed : IpAddr → Prop
  | .v4 ip => ip = ⟨168, 63, 129, 16⟩
  | .v6 ip =>
      match ip.toIpv4Mapped with
      | some mapped => mapped = ⟨168, 63, 129, 16⟩
      | none => ∃ v4, embeddedV4 ip = some v4 ∧ classifyV4 v4 ≠ .public

theorem v4_stronger_iff (ip : Ipv4Addr) :
    (classifyV4 ip ≠ .public → forbiddenV4 ip = true) ↔ ip ≠ ⟨168, 63, 129, 16⟩ := by
  constructor
  · rintro h rfl
    exact absurd (h (by decide)) (by decide)
  · intro hne hclass
    rw [classifyV4] at hclass
    split at hclass
    · rename_i hmeta
      simp only [Bool.or_eq_true, beq_iff_eq] at hmeta
      rcases hmeta with ((rfl | rfl) | rfl) | rfl
      · decide
      · decide
      · exact absurd rfl hne
      · decide
    · split at hclass
      · rename_i hlink
        simp only [forbiddenV4, Ipv4Addr.isLinkLocal, hlink, Bool.or_true, Bool.true_or]
      · split at hclass
        · rename_i hloop
          simp only [forbiddenV4, Ipv4Addr.isLoopback, hloop, Bool.true_or]
        · split at hclass
          · rename_i hpriv
            simp only [Bool.or_eq_true] at hpriv
            rcases hpriv with (((h | h) | h) | h) | h
            · simp only [forbiddenV4, h, Bool.or_true, Bool.true_or]
            · simp only [forbiddenV4, Ipv4Addr.isPrivate, h, Bool.or_true, Bool.true_or]
            · simp only [forbiddenV4, Ipv4Addr.isPrivate, h, Bool.or_true, Bool.true_or]
            · simp only [forbiddenV4, Ipv4Addr.isPrivate, h, Bool.or_true, Bool.true_or]
            · simp only [forbiddenV4, h, Bool.or_true, Bool.true_or]
          · exact absurd rfl hclass

/-- The forms that are looked through look like public IPv6 addresses. -/
theorem embedded_not_forbidden {ip : Ipv6Addr} (hmap : ip.toIpv4Mapped = none) {v4 : Ipv4Addr}
    (h : embeddedV4 ip = some v4) : forbiddenV6 ip = false := by
  rw [embeddedV4, hmap] at h
  dsimp only at h
  have hfirst : ip.s0 = 0x64 ∨ ip.s0 = 0x2002 ∨
      ip.s0 = 0 ∧ ip ≠ Ipv6Addr.LOCALHOST ∧ ip ≠ Ipv6Addr.UNSPECIFIED := by
    split at h
    · rename_i hn
      simp only [Bool.and_eq_true, beq_iff_eq] at hn
      exact Or.inl hn.1.1
    · split at h
      · rename_i h6
        exact Or.inr (Or.inl (beq_iff_eq.mp h6))
      · split at h
        · rename_i hc
          simp only [Bool.and_eq_true, beq_iff_eq, Bool.or_eq_true, bne_iff_ne,
            decide_eq_true_eq] at hc
          refine Or.inr (Or.inr ⟨hc.1.1.1.1.1.1, ?_, ?_⟩)
          · rintro rfl
            rcases hc.2 with h6 | h7
            · exact h6 rfl
            · exact absurd h7 (by decide)
          · rintro rfl
            rcases hc.2 with h6 | h7
            · exact h6 rfl
            · exact absurd h7 (by decide)
        · cases h
  have hne : ip ≠ Ipv6Addr.LOCALHOST ∧ ip ≠ Ipv6Addr.UNSPECIFIED := by
    rcases hfirst with h | h | ⟨-, h⟩
    · constructor
      · rintro rfl; exact absurd h (by decide)
      · rintro rfl; exact absurd h (by decide)
    · constructor
      · rintro rfl; exact absurd h (by decide)
      · rintro rfl; exact absurd h (by decide)
    · exact h
  have hs : (ip.s0 &&& 0xff00 == 0xff00) = false ∧ (ip.s0 &&& 0xfe00 == 0xfc00) = false ∧
      (ip.s0 &&& 0xffc0 == 0xfe80) = false := by
    rcases hfirst with h | h | ⟨h, -⟩
    · rw [h]; decide
    · rw [h]; decide
    · rw [h]; decide
  rw [forbiddenV6, Ipv6Addr.isLoopback, Ipv6Addr.isUnspecified, Ipv6Addr.isMulticast,
    beq_eq_false_iff_ne.mpr hne.1, beq_eq_false_iff_ne.mpr hne.2, hs.1, hs.2.1, hs.2.2]
  rfl

/-- **ONE ADDRESS**: the guard refuses what the policy calls not public, apart from what it
    misses. -/
theorem isForbidden_iff (ip : IpAddr) :
    (classify ip ≠ .public → isForbidden ip = true) ↔ ¬ Missed ip := by
  cases ip with
  | v4 ip => exact v4_stronger_iff ip
  | v6 ip =>
      by_cases hec2 : ip = ⟨0xfd00, 0x0ec2, 0, 0, 0, 0, 0, 0x0254⟩
      · subst hec2
        constructor
        · rintro - ⟨v4, hv4, -⟩
          cases (show embeddedV4 ⟨0xfd00, 0x0ec2, 0, 0, 0, 0, 0, 0x0254⟩ = none by decide).symm.trans hv4
        · intro _ _
          decide
      · have hec2' : (ip == ⟨0xfd00, 0x0ec2, 0, 0, 0, 0, 0, 0x0254⟩) = false :=
          beq_eq_false_iff_ne.mpr hec2
        cases hmap : ip.toIpv4Mapped with
        | some mapped =>
            have hclass : classify (.v6 ip) = classifyV4 mapped := by
              rw [classify, hec2', if_neg Bool.false_ne_true, embeddedV4, hmap]
            have hforb : isForbidden (.v6 ip) = forbiddenV4 mapped := by rw [isForbidden, hmap]
            have hmiss : Missed (.v6 ip) ↔ mapped = ⟨168, 63, 129, 16⟩ := by rw [Missed, hmap]
            rw [hclass, hforb, hmiss]
            exact v4_stronger_iff mapped
        | none =>
            have hforb : isForbidden (.v6 ip) = forbiddenV6 ip := by rw [isForbidden, hmap]
            have hmiss : Missed (.v6 ip) ↔ ∃ v4, embeddedV4 ip = some v4 ∧ classifyV4 v4 ≠ .public := by
              rw [Missed, hmap]
            rw [hforb, hmiss, classify, hec2', if_neg Bool.false_ne_true]
            cases hemb : embeddedV4 ip with
            | some v4 =>
                rw [embedded_not_forbidden hmap hemb]
                constructor
                · rintro h ⟨v, hv, hclass⟩
                  cases hv
                  exact absurd (h hclass) Bool.false_ne_true
                · intro h hclass
                  exact absurd ⟨v4, rfl, hclass⟩ h
            | none =>
                refine iff_of_true ?_ (by rintro ⟨v, hv, -⟩; cases hv)
                dsimp only
                intro hclass
                split at hclass
                · rename_i hl
                  simp only [forbiddenV6, Ipv6Addr.isLoopback, hl, Bool.true_or]
                · split at hclass
                  · rename_i hp
                    rcases Bool.or_eq_true_iff.mp hp with hp | hp
                    · simp only [forbiddenV6, Ipv6Addr.isUnspecified, hp, Bool.true_or, Bool.or_true]
                    · simp only [forbiddenV6, hp, Bool.true_or, Bool.or_true]
                  · split at hclass
                    · rename_i hk
                      simp only [forbiddenV6, hk, Bool.or_true]
                    · exact absurd rfl hclass

/-- The policy refuses an address under some flags exactly when it is not public. -/
theorem checkIp_refuses_iff (ip : IpAddr) :
    (∃ guard : HttpGuard, guard.checkIp ip ≠ .ok ()) ↔ classify ip ≠ .public := by
  constructor
  · rintro ⟨guard, h⟩ hpublic
    rw [HttpGuard.checkIp, hpublic] at h
    exact h rfl
  · intro h
    refine ⟨⟨false, true⟩, ?_⟩
    rw [HttpGuard.checkIp]
    cases hc : classify ip with
    | «public» => exact absurd hc h
    | loopback => exact fun he => nomatch he
    | «private» => exact fun he => nomatch he
    | linkLocal => exact fun he => nomatch he
    | metadata => exact fun he => nomatch he

/-- One forbidden address refuses the endpoint. -/
theorem vetEndpoint_forbidden {loopbackOk : Bool} {e : Endpoint} {ip : IpAddr} (hip : ip ∈ e.addrs)
    (hforbidden : isForbidden ip = true) (hloop : loopbackOk = true → ip.isLoopback = false) :
    ∃ reason, vetEndpoint loopbackOk (some e) = .error reason := by
  have hbad : (isForbidden ip && !(loopbackOk && ip.isLoopback)) = true := by
    rw [hforbidden, Bool.true_and, Bool.not_eq_true']
    cases loopbackOk with
    | false => rfl
    | true => rw [hloop rfl, Bool.and_false]
  obtain ⟨userinfo, host, port, scheme⟩ := e
  dsimp only [vetEndpoint]
  split
  · exact ⟨_, rfl⟩
  · cases host with
    | none => cases hip
    | some host =>
        cases port with
        | none => exact ⟨_, rfl⟩
        | some port =>
            dsimp only
            cases host with
            | ip other =>
                cases List.mem_singleton.mp hip
                have hany : ([ip].any fun ip => isForbidden ip && !(loopbackOk && ip.isLoopback)) =
                    true := List.any_eq_true.mpr ⟨ip, List.mem_singleton_self _, hbad⟩
                dsimp only
                rw [hany]
                split
                · exact ⟨_, rfl⟩
                · split
                  · exact ⟨_, rfl⟩
                  · exact ⟨_, rfl⟩
            | domain name resolved =>
                cases resolved with
                | none => exact ⟨_, rfl⟩
                | some addrs =>
                    have hip : ip ∈ addrs := hip
                    have hany : (addrs.any fun ip => isForbidden ip && !(loopbackOk && ip.isLoopback)) =
                        true := List.any_eq_true.mpr ⟨ip, hip, hbad⟩
                    cases addrs with
                    | nil => cases hip
                    | cons first rest =>
                        dsimp only
                        rw [hany]
                        split
                        · exact ⟨_, rfl⟩
                        · split
                          · exact ⟨_, rfl⟩
                          · exact ⟨_, rfl⟩

/-- The endpoint `https://ip:port`. -/
def literalEndpoint (ip : IpAddr) (port : Nat) : Endpoint := ⟨false, some (.ip ip), some port, "https"⟩

/-- An address that is not forbidden is not refused. -/
theorem vetEndpoint_literal {ip : IpAddr} (h : isForbidden ip = false) (port : Nat) :
    vetEndpoint false (some (literalEndpoint ip port)) = .ok none := by
  have hany : ([ip].any fun ip => isForbidden ip && !(false && ip.isLoopback)) = false := by
    rw [List.any_cons, h]
    rfl
  dsimp only [vetEndpoint, literalEndpoint]
  rw [hany]
  rfl

/-- **WHEN THE GUARD IS AT LEAST AS STRICT**: for an address exactly when it is not `Missed`.  So an
    endpoint without such an address (and without a loopback one, where the tests allow these) is
    refused whenever the policy refuses one of its addresses under some flags, and an endpoint of
    one address is refused exactly then. -/
theorem guard_stronger_iff (ip : IpAddr) (port : Nat) (loopbackOk : Bool) (e : Endpoint) :
    ((classify ip ≠ .public → isForbidden ip = true) ↔ ¬ Missed ip) ∧
    (((∃ guard : HttpGuard, guard.checkIp ip ≠ .ok ()) →
      ∃ reason, vetEndpoint false (some (literalEndpoint ip port)) = .error reason) ↔ ¬ Missed ip) ∧
    ((∀ ip ∈ e.addrs, ¬ Missed ip ∧ (loopbackOk = true → ip.isLoopback = false)) →
      ∀ guard : HttpGuard, ∀ ip ∈ e.addrs, guard.checkIp ip ≠ .ok () →
        ∃ reason, vetEndpoint loopbackOk (some e) = .error reason) := by
  refine ⟨isForbidden_iff ip, ?_, ?_⟩
  · rw [← isForbidden_iff, checkIp_refuses_iff]
    constructor
    · intro h hclass
      obtain ⟨reason, hreason⟩ := h hclass
      cases hforb : isForbidden ip with
      | true => rfl
      | false =>
          rw [vetEndpoint_literal hforb] at hreason
          cases hreason
    · intro h hclass
      exact vetEndpoint_forbidden (List.mem_singleton_self ip) (h hclass) fun he => nomatch he
  · intro hall guard ip hip hrefused
    have hclass := (checkIp_refuses_iff ip).mp ⟨guard, hrefused⟩
    exact vetEndpoint_forbidden hip ((isForbidden_iff ip).mpr (hall ip hip).1 hclass) (hall ip hip).2

/-- Azure's metadata address, and a private one behind NAT64, are refused by the policy and accepted
    for a client secret. -/
theorem metadata_address_missed :
    ¬ ((∀ ip, classify ip ≠ .public → isForbidden ip = true) ∨
      ∀ ip : Ipv6Addr, classify (.v6 ip) ≠ .public → isForbidden (.v6 ip) = true) := by
  rintro (h | h)
  · exact absurd (h (.v4 ⟨168, 63, 129, 16⟩) (by decide)) (by decide)
  · exact absurd (h ⟨0x64, 0xff9b, 0, 0, 0, 0, 0x0a00, 0x0001⟩ (by decide)) (by decide)

end Greentic.NetGuard
