/-
What the outbound client never reaches.

`blockedIP` reads bytes, masks and texts; `guard_blocks_networks` says which networks that
comes to, for an IPv4 address in either of its forms.  The rest is about whole exchanges: a
redirect is checked against the request it all began with, so what holds of the first
request holds of every one after it.
-/
import GenaiBridge.Bridge.Egress
import GenaiBridge.Proofs.RangeServer

namespace GenaiBridge

namespace Httpx

open Lib (IP)

/-! ### The networks -/

/-- Networks no request may reach. -/
def neverNets : List IP.Net :=
  [⟨[169, 254, 0, 0], 16⟩, ⟨[100, 64, 0, 0], 10⟩, ⟨[224, 0, 0, 0], 24⟩,
    ⟨[0xfe, 0x80, 0, 0, 0, 0, 0, 0, 0, 0, 0, 0, 0, 0, 0, 0], 10⟩,
    ⟨[0xfd, 0x00, 0x0e, 0xc2, 0, 0, 0, 0, 0, 0, 0, 0, 0, 0, 0x02, 0x54], 128⟩] ++
  -- link-local multicast, under each of the sixteen flags
  (List.range 16).map fun flags =>
    ⟨[0xff, UInt8.ofNat (16 * flags + 2), 0, 0, 0, 0, 0, 0, 0, 0, 0, 0, 0, 0, 0, 0], 16⟩

/-- Networks only a client that allows private addresses may reach. -/
def privateNets : List IP.Net :=
  [⟨[127, 0, 0, 0], 8⟩, ⟨[10, 0, 0, 0], 8⟩, ⟨[172, 16, 0, 0], 12⟩, ⟨[192, 168, 0, 0], 16⟩,
    ⟨[0, 0, 0, 0], 32⟩,
    ⟨[0, 0, 0, 0, 0, 0, 0, 0, 0, 0, 0, 0, 0, 0, 0, 1], 128⟩,
    ⟨[0xfc, 0, 0, 0, 0, 0, 0, 0, 0, 0, 0, 0, 0, 0, 0, 0], 7⟩,
    ⟨[0, 0, 0, 0, 0, 0, 0, 0, 0, 0, 0, 0, 0, 0, 0, 0], 128⟩]

/-- The networks a client may not reach. -/
def blockedNets (allowPrivate : Bool) : List IP.Net :=
  neverNets ++ if allowPrivate then [] else privateNets

/-- An address is in one of some networks. -/
def InNets (nets : List IP.Net) (ip : IP) : Prop := ∃ n ∈ nets, n.Contains ip.canonical

theorem inNets_append {nets nets' : List IP.Net} {ip : IP} :
    InNets (nets ++ nets') ip ↔ InNets nets ip ∨ InNets nets' ip := by
  simp only [InNets, List.mem_append, or_and_right, exists_or]

theorem in_blockedNets {allowPrivate : Bool} {ip : IP} :
    InNets (blockedNets allowPrivate) ip ↔
      InNets neverNets ip ∨ allowPrivate = false ∧ InNets privateNets ip := by
  rw [blockedNets, inNets_append]
  cases allowPrivate with
  | true => simp [InNets]
  | false => simp

theorem blockedIP_ok_iff {ip : IP} {allowPrivate : Bool} :
    blockedIP ip allowPrivate = .ok () ↔
      ¬ (String.ofList ip.text ∈ cloudMetadataIPs ∨ inCgnat ip = true) ∧
      ¬ (ip.isLinkLocalUnicast = true ∨ ip.isLinkLocalMulticast = true) ∧
      ¬ (allowPrivate = false ∧
        (ip.isLoopback = true ∨ ip.isPrivate = true ∨ ip.isUnspecified = true)) := by
  unfold blockedIP
  by_cases hmeta : String.ofList ip.text ∈ cloudMetadataIPs ∨ inCgnat ip = true
  · rw [if_pos hmeta]
    simp [hmeta]
  · rw [if_neg hmeta]
    by_cases hlocal : (ip.isLinkLocalUnicast || ip.isLinkLocalMulticast) = true
    · rw [if_pos hlocal]
      simp only [Bool.or_eq_true] at hlocal
      simp [hlocal]
    · rw [if_neg hlocal]
      simp only [Bool.or_eq_true] at hlocal
      by_cases hpriv : (!allowPrivate && (ip.isLoopback || ip.isPrivate || ip.isUnspecified)) = true
      · rw [if_pos hpriv]
        simp only [Bool.and_eq_true, Bool.not_eq_true', Bool.or_eq_true, or_assoc] at hpriv
        simp [hpriv]
      · rw [if_neg hpriv]
        simp only [Bool.and_eq_true, Bool.not_eq_true', Bool.or_eq_true, or_assoc] at hpriv
        simp only [hmeta, hlocal, hpriv, not_false_eq_true, and_self]

private theorem let_through_iff {metadata cgnat unicast multicast vendorOnly near : Prop}
    (h : metadata → unicast ∨ cgnat) :
    (¬ (metadata ∨ cgnat) ∧ ¬ (unicast ∨ multicast) ∧ ¬ (vendorOnly ∧ near)) ↔
      ¬ ((unicast ∨ cgnat ∨ multicast) ∨ vendorOnly ∧ near) := by
  tauto

/-! ### Bytes under a mask -/

private theorem masks (b : UInt8) :
    b &&& 0xff = b ∧ (b &&& 0xf0 = 16 ↔ b.toNat / 16 = 1) ∧
    (b &&& 0xc0 = 64 ↔ b.toNat / 64 = 1) ∧ (b &&& 0xc0 = 0x80 ↔ b.toNat / 64 = 2) ∧
    (b &&& 0xfe = 0xfc ↔ b.toNat / 2 = 126) ∧
    (b &&& 0x0f = 0x02 ↔ ∃ flags < 16, UInt8.ofNat (16 * flags + 2) = b) := by
  have hlt := b.toNat_lt
  rw [← @UInt8.ofNat_toNat b]
  generalize b.toNat = n at hlt ⊢
  revert n
  decide +kernel

/-! ### The metadata services -/

/-- The address of the metadata service that has sixteen bytes. -/
def metadata6 : IP := [0xfd, 0x00, 0x0e, 0xc2, 0, 0, 0, 0, 0, 0, 0, 0, 0, 0, 0x02, 0x54]

/-- The texts of the metadata services, cut at the separators of either kind of address. -/
private theorem metadata_texts :
    ("169.254.169.254".toList.splitOn '.' =
      [IP.octet 169, IP.octet 254, IP.octet 169, IP.octet 254] ∧
    "100.100.100.200".toList.splitOn '.' =
      [IP.octet 100, IP.octet 100, IP.octet 100, IP.octet 200] ∧
    ("fd00:ec2::254".toList.splitOn '.').length = 1) ∧
    ("169.254.169.254".toList.splitOn ':').length = 1 ∧
    ("100.100.100.200".toList.splitOn ':').length = 1 ∧
    "fd00:ec2::254".toList.splitOn ':' =
      [0xfd00, 0xec2].map IP.hexGroup ++ [] :: [0x254].map IP.hexGroup ∧
    [0xfd00, 0xec2] ++ List.replicate (8 - [0xfd00, 0xec2].length - [0x254].length) 0 ++ [0x254] =
      IP.groups metadata6 ∧
    IP.text metadata6 = "fd00:ec2::254".toList := by
  decide +kernel

/-! ### Four bytes -/

section Four

variable {ip : IP} {a b c d : UInt8}

theorem in_neverNets_four (h : ip.to4 = some [a, b, c, d]) :
    InNets neverNets ip ↔ a = 169 ∧ b = 254 ∨ a = 100 ∧ b.toNat / 64 = 1 ∨
      a = 224 ∧ b = 0 ∧ c = 0 := by
  unfold InNets neverNets
  rw [IP.canonical_of_some h]
  simp [IP.contains_cons, IP.contains_cons_of_lt, IP.contains_zero, IP.not_contains_nil]

theorem in_privateNets_four (h : ip.to4 = some [a, b, c, d]) :
    InNets privateNets ip ↔ a = 127 ∨ (a = 10 ∨ a = 172 ∧ b.toNat / 16 = 1 ∨ a = 192 ∧ b = 168) ∨
      a = 0 ∧ b = 0 ∧ c = 0 ∧ d = 0 := by
  unfold InNets privateNets
  rw [IP.canonical_of_some h]
  simp [or_assoc, IP.contains_cons, IP.contains_cons_of_lt, IP.contains_zero, IP.not_contains_nil]

/-- An address of four bytes with the text of a metadata service is in a blocked network. -/
theorem metadata_four (h : ip.to4 = some [a, b, c, d])
    (htext : String.ofList ip.text ∈ cloudMetadataIPs) :
    a = 169 ∧ b = 254 ∨ a = 100 ∧ b.toNat / 64 = 1 := by
  have hwords := IP.splitOn_text_of_some h
  have hcut : ∀ {t : String}, String.ofList ip.text = t →
      t.toList.splitOn '.' = [IP.octet a, IP.octet b, IP.octet c, IP.octet d] := by
    rintro t rfl
    rw [String.toList_ofList]
    exact hwords
  obtain ⟨hlink, hvendor, hsix⟩ := metadata_texts.1
  simp only [cloudMetadataIPs, List.mem_cons, List.not_mem_nil, or_false] at htext
  rcases htext with ht | ht | ht
  · have hbytes := hcut ht
    rw [hlink] at hbytes
    simp only [List.cons.injEq] at hbytes
    exact Or.inl ⟨(IP.octet_inj hbytes.1).symm, (IP.octet_inj hbytes.2.1).symm⟩
  · have hbytes := hcut ht
    rw [hvendor] at hbytes
    simp only [List.cons.injEq] at hbytes
    obtain rfl := IP.octet_inj hbytes.2.1
    exact Or.inr ⟨(IP.octet_inj hbytes.1).symm, by decide⟩
  · have hlen := congrArg List.length (hcut ht)
    rw [hsix] at hlen
    cases hlen

theorem blocked_four (h : ip.to4 = some [a, b, c, d]) (allowPrivate : Bool) :
    blockedIP ip allowPrivate = .ok () ↔ ¬ InNets (blockedNets allowPrivate) ip := by
  obtain ⟨-, hf0, hc0, -⟩ := masks b
  have hcgnat : inCgnat ip = true ↔ a = 100 ∧ b.toNat / 64 = 1 := by
    rw [← hc0]
    simp [inCgnat, IP.maskContains, IP.canonical_of_some h, (masks a).1, (masks 100).1,
      show (64 : UInt8) &&& 0xc0 = 64 by decide]
  have hunicast : ip.isLinkLocalUnicast = true ↔ a = 169 ∧ b = 254 := by
    simp [IP.isLinkLocalUnicast, h]
  have hmulticast : ip.isLinkLocalMulticast = true ↔ a = 224 ∧ b = 0 ∧ c = 0 := by
    simp [IP.isLinkLocalMulticast, h, and_assoc]
  have hloopback : ip.isLoopback = true ↔ a = 127 := by
    simp [IP.isLoopback, h]
  have hprivate : ip.isPrivate = true ↔ a = 10 ∨ a = 172 ∧ b.toNat / 16 = 1 ∨ a = 192 ∧ b = 168 := by
    rw [← hf0]
    simp [IP.isPrivate, h, or_assoc]
  have hunspecified : ip.isUnspecified = true ↔ a = 0 ∧ b = 0 ∧ c = 0 ∧ d = 0 := by
    rcases IP.eq_of_to4 h with rfl | rfl <;> simp [IP.isUnspecified, IP.equal, IP.v4InV6Prefix]
  have hmetadata := metadata_four h
  rw [blockedIP_ok_iff, in_blockedNets, in_neverNets_four h, in_privateNets_four h, hcgnat, hunicast,
    hmulticast, hloopback, hprivate, hunspecified]
  exact let_through_iff hmetadata

end Four

/-! ### Sixteen bytes -/

section Sixteen

variable {ip rest : IP} {a b : UInt8}

private theorem contains_four (hlen : rest.length = 14) {w x y z : UInt8} {ones : Nat} :
    IP.Net.Contains ⟨[w, x, y, z], ones⟩ (a :: b :: rest) ↔ False := by
  refine iff_false_intro fun hc => ?_
  have hlength := hc.1
  rw [List.length_cons, List.length_cons, hlen] at hlength
  cases hlength

theorem in_neverNets_sixteen (h : ip.to4 = none) (hip : ip = a :: b :: rest)
    (hlen : rest.length = 14) :
    InNets neverNets ip ↔ a = 0xfe ∧ b.toNat / 64 = 2 ∨ ip = metadata6 ∨
      a = 0xff ∧ ∃ flags < 16, UInt8.ofNat (16 * flags + 2) = b := by
  rw [neverNets, inNets_append, InNets, InNets, IP.canonical_of_none h, ← or_assoc]
  subst hip
  refine or_congr ?_ ?_
  · simp only [List.mem_cons, List.not_mem_nil, or_false, exists_eq_or_imp, exists_eq_left,
      contains_four hlen, false_or]
    rw [IP.contains_cons (by decide), IP.contains_cons_of_lt (by decide)]
    exact or_congr (by simp [hlen]) IP.contains_full
  · simp only [List.mem_map, List.mem_range, exists_exists_and_eq_and]
    constructor
    · rintro ⟨flags, hflags, hc⟩
      rw [IP.contains_cons (by decide), IP.contains_cons (by decide)] at hc
      exact ⟨hc.1, flags, hflags, hc.2.1.symm⟩
    · rintro ⟨rfl, flags, hflags, rfl⟩
      refine ⟨flags, hflags, ?_⟩
      rw [IP.contains_cons (by decide), IP.contains_cons (by decide)]
      exact ⟨rfl, rfl, IP.contains_zero.mpr hlen⟩

theorem in_privateNets_sixteen (h : ip.to4 = none) (hip : ip = a :: b :: rest)
    (hlen : rest.length = 14) :
    InNets privateNets ip ↔ ip = [0, 0, 0, 0, 0, 0, 0, 0, 0, 0, 0, 0, 0, 0, 0, 1] ∨
      a.toNat / 2 = 126 ∨ ip = [0, 0, 0, 0, 0, 0, 0, 0, 0, 0, 0, 0, 0, 0, 0, 0] := by
  rw [privateNets, InNets, IP.canonical_of_none h]
  subst hip
  simp only [List.mem_cons, List.not_mem_nil, or_false, exists_eq_or_imp, exists_eq_left,
    contains_four hlen, false_or]
  refine or_congr IP.contains_full (or_congr ?_ IP.contains_full)
  rw [IP.contains_cons_of_lt (by decide)]
  simp [hlen]

/-- Of sixteen bytes only one address has the text of a metadata service. -/
theorem metadata_sixteen (h : ip.to4 = none) (hlen : ip.length = 16) :
    String.ofList ip.text ∈ cloudMetadataIPs ↔ ip = metadata6 := by
  have hgroups : (IP.groups ip).length = 8 := by rw [IP.length_groups, hlen]
  have hwords := IP.splitOn_text_of_none h hlen
  have hcut : ∀ {t : String}, String.ofList ip.text = t →
      t.toList.splitOn ':' = IP.words6 (IP.groups ip) := by
    rintro t rfl
    rw [String.toList_ofList]
    exact hwords
  obtain ⟨hlink, hvendor, hsix, hgroups6, htext6⟩ := metadata_texts.2
  constructor
  · intro htext
    simp only [cloudMetadataIPs, List.mem_cons, List.not_mem_nil, or_false] at htext
    rcases htext with ht | ht | ht
    · have hthree := IP.three_le_length_words6 hgroups
      rw [← hcut ht, hlink] at hthree
      cases hthree with | step hthree => cases hthree
    · have hthree := IP.three_le_length_words6 hgroups
      rw [← hcut ht, hvendor] at hthree
      cases hthree with | step hthree => cases hthree
    · have hsides := hcut ht
      rw [hsix] at hsides
      have heq := IP.eq_of_words6 (IP.groups_lt ip) (by decide) (by decide) (by decide) (by decide)
        hsides.symm
      rw [hgroups] at heq
      exact IP.groups_inj (hlen.trans rfl) (by rw [hlen]) (heq.trans hgroups6)
  · rintro rfl
    rw [htext6, String.ofList_toList]
    simp [cloudMetadataIPs]

theorem blocked_sixteen (h : ip.to4 = none) (hip : ip = a :: b :: rest) (hlen : rest.length = 14)
    (allowPrivate : Bool) :
    blockedIP ip allowPrivate = .ok () ↔ ¬ InNets (blockedNets allowPrivate) ip := by
  have hlen16 : ip.length = 16 := by rw [hip, List.length_cons, List.length_cons, hlen]
  have hfirst : ip.getD 0 0 = a := by rw [hip]; rfl
  have hsecond : ip.getD 1 0 = b := by rw [hip]; rfl
  obtain ⟨-, -, -, hc0, -, h0f⟩ := masks b
  obtain ⟨-, -, -, -, hfe, -⟩ := masks a
  have hcgnat : inCgnat ip = false := by
    simp [inCgnat, IP.maskContains, IP.canonical_of_none h, hlen16]
  have hunicast : ip.isLinkLocalUnicast = true ↔ a = 0xfe ∧ b.toNat / 64 = 2 := by
    rw [← hc0, IP.isLinkLocalUnicast, h]
    dsimp only
    rw [hfirst, hsecond, hlen16]
    simp
  have hmulticast : ip.isLinkLocalMulticast = true ↔
      a = 0xff ∧ ∃ flags < 16, UInt8.ofNat (16 * flags + 2) = b := by
    rw [← h0f, IP.isLinkLocalMulticast, h]
    dsimp only
    rw [hfirst, hsecond, hlen16]
    simp
  have hloopback : ip.isLoopback = true ↔
      ip = [0, 0, 0, 0, 0, 0, 0, 0, 0, 0, 0, 0, 0, 0, 0, 1] := by
    rw [IP.isLoopback, h]
    dsimp only
    exact IP.equal_of_length hlen16
  have hprivate : ip.isPrivate = true ↔ a.toNat / 2 = 126 := by
    rw [← hfe, IP.isPrivate, h]
    dsimp only
    rw [hfirst, hlen16]
    simp
  have hunspecified : ip.isUnspecified = true ↔
      ip = [0, 0, 0, 0, 0, 0, 0, 0, 0, 0, 0, 0, 0, 0, 0, 0] := by
    rw [IP.isUnspecified, Bool.or_eq_true, IP.equal_of_length hlen16, IP.equal_of_length hlen16]
    refine or_iff_right ?_
    rintro rfl
    exact absurd h (by decide)
  have hmetadata : (String.ofList ip.text ∈ cloudMetadataIPs ∨ inCgnat ip = true) ↔
      (False ∨ ip = metadata6) := by
    rw [metadata_sixteen h hlen16, hcgnat]
    simp
  rw [blockedIP_ok_iff, in_blockedNets, in_neverNets_sixteen h hip hlen,
    in_privateNets_sixteen h hip hlen, hmetadata, hunicast, hmulticast, hloopback, hprivate,
    hunspecified]
  exact let_through_iff (fun hc => absurd hc not_false)

end Sixteen

/-- An address of either length is let through if it is in no blocked network. -/
theorem blockedIP_ok_iff_nets {ip : IP} (hlen : ip.length = 4 ∨ ip.length = 16)
    {allowPrivate : Bool} :
    blockedIP ip allowPrivate = .ok () ↔ ¬ InNets (blockedNets allowPrivate) ip := by
  cases h : ip.to4 with
  | some ip4 =>
    obtain ⟨a, b, c, d, rfl⟩ := List.length_eq_four.mp (IP.length_of_to4 h)
    exact blocked_four h allowPrivate
  | none =>
    rcases hlen with hlen | hlen
    · rw [IP.to4, if_pos hlen] at h
      cases h
    · cases hip : ip with
      | nil => rw [hip] at hlen; cases hlen
      | cons a rest =>
        cases rest with
        | nil => rw [hip] at hlen; cases hlen
        | cons b rest =>
          rw [hip] at h hlen
          exact blocked_sixteen h rfl (by simpa using hlen) allowPrivate

/-- **The guard blocks these networks and no others**: an address the library hands over, of four
or of sixteen bytes, is let through exactly if it is in none of them, and the sixteen bytes of an
IPv4 address are treated as its four. -/
theorem guard_blocks_networks (ip : IP) (hlen : ip.length = 4 ∨ ip.length = 16)
    (allowPrivate : Bool) :
    (blockedIP ip allowPrivate = .ok () ↔ ∀ n ∈ blockedNets allowPrivate,
      ¬ n.Contains ip.canonical) ∧
    ∀ ip' : IP, ip'.length = 4 ∨ ip'.length = 16 → ip'.canonical = ip.canonical →
      (blockedIP ip' allowPrivate = .ok () ↔ blockedIP ip allowPrivate = .ok ()) := by
  refine ⟨?_, ?_⟩
  · rw [blockedIP_ok_iff_nets hlen, InNets]
    push Not
    rfl
  · intro ip' hlen' hcanonical
    rw [blockedIP_ok_iff_nets hlen', blockedIP_ok_iff_nets hlen, InNets, InNets, hcanonical]

/-- The metadata service behind an IPv4 address of sixteen bytes is blocked, whatever is
allowed. -/
theorem guard_blocks_networks_mapped :
    blockedIP [0, 0, 0, 0, 0, 0, 0, 0, 0, 0, 0xff, 0xff, 169, 254, 169, 254] true ≠ .ok () := by
  intro hok
  refine (guard_blocks_networks _ (Or.inr rfl) true).1.mp hok ⟨[169, 254, 0, 0], 16⟩
    (List.mem_append_left _ List.mem_cons_self) ?_
  exact ⟨by decide, by decide⟩

/-! ### Whole exchanges -/

/-- The addresses a host is taken for: the one it spells, or those it resolves to. -/
def Lookups.addresses (lookups : Lookups) (host : String) : Except String (List IP) :=
  match lookups.parseIP host with
  | some ip => .ok [ip]
  | none => lookups.lookupIPAddr host

variable {casing : Casing}

/-- A request that stays where the call began; `lookups` is what the library said about its host
before it was sent. -/
structure Confined (casing : Casing) (cfg : Config) (origin : URL) (lookups : Lookups) (v : URL) :
    Prop where
  listed : cfg.allowHosts ≠ [] →
    ∃ h ∈ cfg.allowHosts, casing.toLower h = casing.toLower v.hostname
  named : casing.toLower v.hostname ≠ ""
  sameHost : casing.equalFold v.hostname origin.hostname = true
  encrypted : casing.equalFold origin.scheme "https" = true →
    casing.equalFold v.scheme "https" = true
  /-- None of the addresses the host was looked up with is blocked. -/
  unblocked : ∃ addrs, lookups.addresses (casing.toLower v.hostname) = .ok addrs ∧
    ∀ ip ∈ addrs, ip.length = 4 ∨ ip.length = 16 → ¬ InNets (blockedNets cfg.allowPrivate) ip

theorem checkAddrs_ok {allowPrivate : Bool} : ∀ {addrs : List IP},
    checkAddrs allowPrivate addrs = .ok () → ∀ ip ∈ addrs, blockedIP ip allowPrivate = .ok () := by
  intro addrs
  induction addrs with
  | nil => intro _ ip hip; cases hip
  | cons a addrs ih =>
    intro h ip hip
    unfold checkAddrs at h
    cases ha : blockedIP a allowPrivate with
    | error e => rw [ha] at h; cases h
    | ok u =>
      rw [ha] at h
      rcases List.mem_cons.mp hip with rfl | hip
      · exact ha
      · exact ih h ip hip

theorem checkDest_ok {cfg : Config} {lookups : Lookups} {v : URL}
    (h : checkDest casing cfg lookups v = .ok ()) :
    (cfg.allowHosts ≠ [] →
      ∃ a ∈ cfg.allowHosts, casing.toLower a = casing.toLower v.hostname) ∧
    casing.toLower v.hostname ≠ "" ∧
    ∃ addrs, lookups.addresses (casing.toLower v.hostname) = .ok addrs ∧
      ∀ ip ∈ addrs, blockedIP ip cfg.allowPrivate = .ok () := by
  unfold checkDest at h
  dsimp only at h
  generalize casing.toLower v.hostname = host at *
  by_cases hlist : cfg.allowHosts ≠ [] ∧ ¬ ∃ a ∈ cfg.allowHosts, casing.toLower a = host
  · rw [if_pos hlist] at h
    cases h
  · rw [if_neg hlist] at h
    by_cases hempty : host = ""
    · rw [if_pos hempty] at h
      cases h
    · rw [if_neg hempty] at h
      refine ⟨fun hne => by_contra fun hno => hlist ⟨hne, hno⟩, hempty, ?_⟩
      unfold Lookups.addresses
      cases hparse : lookups.parseIP host with
      | some ip =>
        rw [hparse] at h
        refine ⟨[ip], rfl, ?_⟩
        intro ip' hip'
        rw [List.mem_singleton.mp hip']
        exact h
      | none =>
        rw [hparse] at h
        dsimp only at h
        cases hlook : lookups.lookupIPAddr host with
        | error cause => rw [hlook] at h; cases h
        | ok addrs =>
          rw [hlook] at h
          exact ⟨addrs, rfl, checkAddrs_ok h⟩

theorem confined_of_checkDest {cfg : Config} {lookups : Lookups} {origin v : URL}
    (h : checkDest casing cfg lookups v = .ok ())
    (hhost : casing.equalFold v.hostname origin.hostname = true)
    (hscheme : casing.equalFold origin.scheme "https" = true →
      casing.equalFold v.scheme "https" = true) :
    Confined casing cfg origin lookups v := by
  obtain ⟨hlisted, hnamed, addrs, haddrs, hok⟩ := checkDest_ok h
  refine ⟨hlisted, hnamed, hhost, hscheme, addrs, haddrs, ?_⟩
  intro ip hip hlen
  exact (blockedIP_ok_iff_nets hlen).mp (hok ip hip)

/-- A redirect that is followed goes to the host the call began with, and stays encrypted. -/
theorem checkRedirectCreds_ok {origin v : URL} {via : List URL} (hvia : via.head? = some origin)
    (h : checkRedirectCreds casing v via = .ok ()) :
    casing.equalFold v.hostname origin.hostname = true ∧
      (casing.equalFold origin.scheme "https" = true →
        casing.equalFold v.scheme "https" = true) := by
  unfold checkRedirectCreds at h
  rw [hvia] at h
  dsimp only at h
  split_ifs at h with hhost hscheme
  refine ⟨by simpa using hhost, fun horigin => ?_⟩
  by_contra hplain
  exact hscheme ⟨horigin, by simpa using hplain⟩

/-- A redirect that is followed was checked with what the library said about its host. -/
theorem checkRedirect_ok {cfg : Config} {lookups : Lookups} {origin v : URL} {via : List URL}
    (hvia : via.head? = some origin) (h : checkRedirect casing cfg lookups v via = .ok ()) :
    via.length < 10 ∧ Confined casing cfg origin lookups v := by
  unfold checkRedirect at h
  split_ifs at h with hmany
  cases hcreds : checkRedirectCreds casing v via with
  | error e => rw [hcreds] at h; cases h
  | ok u =>
    rw [hcreds] at h
    obtain ⟨hhost, hscheme⟩ := checkRedirectCreds_ok hvia hcreds
    exact ⟨not_le.mp hmany, confined_of_checkDest h hhost hscheme⟩

/-- The requests of a list stay where the call began, each with the lookups made for it. -/
def AllConfined (casing : Casing) (cfg : Config) (origin : URL) (looked : List Lookups)
    (sent : List URL) : Prop :=
  ∀ (i : Nat) v, sent[i]? = some v → ∃ lookups, looked[i]? = some lookups ∧
    Confined casing cfg origin lookups v

theorem AllConfined.cons {cfg : Config} {origin : URL} {looked : List Lookups} {sent : List URL}
    {lookups : Lookups} {v : URL} (hv : Confined casing cfg origin lookups v)
    (h : AllConfined casing cfg origin looked sent) :
    AllConfined casing cfg origin (lookups :: looked) (v :: sent) := by
  intro i w hw
  cases i with
  | zero =>
    obtain rfl := Option.some.inj hw
    exact ⟨lookups, rfl, hv⟩
  | succ i => exact h i w hw

theorem AllConfined.nil {cfg : Config} {origin : URL} {looked : List Lookups} :
    AllConfined casing cfg origin looked [] := by
  intro i w hw
  cases hw

theorem follow_confined {cfg : Config} {origin : URL} :
    ∀ (hops : List Hop) (via : List URL) (v : URL) (lookups : Lookups),
      (via ++ [v]).head? = some origin → via.length < 10 →
      Confined casing cfg origin lookups v →
      (follow casing cfg via v hops).sent.length + via.length ≤ 10 ∧
        AllConfined casing cfg origin (lookups :: hops.map Hop.lookups)
          (follow casing cfg via v hops).sent := by
  intro hops
  induction hops with
  | nil =>
    intro via v lookups _ hfew hv
    exact ⟨by rw [follow, List.length_singleton]; omega, .cons hv .nil⟩
  | cons hop hops ih =>
    intro via v lookups horigin hfew hv
    have hone : ∀ result, (⟨[v], result⟩ : Exchange).sent.length + via.length ≤ 10 ∧
        AllConfined casing cfg origin (lookups :: (hop :: hops).map Hop.lookups)
          (⟨[v], result⟩ : Exchange).sent := by
      intro result
      exact ⟨by dsimp only; rw [List.length_singleton]; omega, .cons hv .nil⟩
    unfold follow
    cases hanswer : hop.answer with
    | failed cause => exact hone _
    | response status => exact hone _
    | redirect target =>
      dsimp only
      cases hcheck : checkRedirect casing cfg hop.lookups target (via ++ [v]) with
      | error e => exact hone _
      | ok u =>
        dsimp only
        obtain ⟨hmany, hnext⟩ := checkRedirect_ok horigin hcheck
        have horigin' : (via ++ [v] ++ [target]).head? = some origin := by
          rw [List.head?_append, horigin]
          rfl
        obtain ⟨hlen, hall⟩ := ih (via ++ [v]) target hop.lookups horigin' hmany hnext
        rw [List.length_append, List.length_singleton] at hlen
        exact ⟨by rw [List.length_cons]; omega, .cons hv hall⟩

/-- At most ten requests are sent in one call, and each of them stays where the first one began. -/
theorem sent_confined (casing : Casing) (cfg : Config) (lookups : Lookups)
    (limiter : Option String) (u : URL) (hops : List Hop) :
    (cfg.doRequest casing lookups limiter u hops).sent.length ≤ 10 ∧
    AllConfined casing cfg u (lookups :: hops.map Hop.lookups)
      (cfg.doRequest casing lookups limiter u hops).sent := by
  have hnone : ∀ result, (⟨[], result⟩ : Exchange).sent.length ≤ 10 ∧
      AllConfined casing cfg u (lookups :: hops.map Hop.lookups)
        (⟨[], result⟩ : Exchange).sent := fun _ => ⟨Nat.zero_le _, .nil⟩
  unfold Config.doRequest
  cases hcheck : checkDest casing cfg lookups u with
  | error e => exact hnone _
  | ok _ =>
    cases limiter with
    | some cause => exact hnone _
    | none =>
      have hsame : casing.equalFold u.hostname u.hostname = true := by simp [Casing.equalFold]
      obtain ⟨hlen, hall⟩ := follow_confined hops [] u lookups rfl (by decide)
        (confined_of_checkDest hcheck hsame id)
      exact ⟨by simpa using hlen, hall⟩

/-- The dialer connects to no address of a blocked network. -/
theorem guardControl_ok {allowPrivate : Bool} {parseIP : String → Option IP}
    {splitHostPort : String → Except String (String × String)} {address : String}
    (hguard : guardControl allowPrivate parseIP splitHostPort address = .ok ()) :
    ∃ host port ip, splitHostPort address = .ok (host, port) ∧ parseIP host = some ip ∧
      (ip.length = 4 ∨ ip.length = 16 → ¬ InNets (blockedNets allowPrivate) ip) := by
  unfold guardControl at hguard
  cases hsplit : splitHostPort address with
  | error cause => rw [hsplit] at hguard; cases hguard
  | ok hostPort =>
    obtain ⟨host, port⟩ := hostPort
    rw [hsplit] at hguard
    dsimp only at hguard
    cases hparse : parseIP host with
    | none => rw [hparse] at hguard; cases hguard
    | some ip =>
      rw [hparse] at hguard
      refine ⟨host, port, ip, rfl, hparse, ?_⟩
      intro hlen
      exact (blockedIP_ok_iff_nets hlen).mp hguard

/-- **Requests stay where they began.**  Whatever a server answers and the resolver says: of one
call at most ten requests are sent.  Each goes to a host of the allow-list if there is one, in
whatever case it is written, to the host of the first request, encrypted if that was, and was sent
after its host was looked up and had no address in a blocked network; and the dialer connects to none
that is. -/
theorem egress_confined (casing : Casing) (cfg : Config) (lookups : Lookups)
    (limiter : Option String) (u : URL) (hops : List Hop) :
    (cfg.doRequest casing lookups limiter u hops).sent.length ≤ 10 ∧
    (∀ (i : Nat) v, (cfg.doRequest casing lookups limiter u hops).sent[i]? = some v →
      ∃ looked, (lookups :: hops.map Hop.lookups)[i]? = some looked ∧
        Confined casing cfg u looked v) ∧
    ∀ parseIP splitHostPort address,
      guardControl cfg.allowPrivate parseIP splitHostPort address = .ok () →
      ∃ host port ip, splitHostPort address = .ok (host, port) ∧ parseIP host = some ip ∧
        (ip.length = 4 ∨ ip.length = 16 → ¬ InNets (blockedNets cfg.allowPrivate) ip) := by
  obtain ⟨hlen, hall⟩ := sent_confined casing cfg lookups limiter u hops
  exact ⟨hlen, hall, fun _ _ _ hguard => guardControl_ok hguard⟩

end Httpx

/-! ### Signed URLs -/

/-- The URL an object is downloaded from, if a call is a download. -/
def ExportCall.chunkURL? : ExportCall → Option String
  | .downloadChunk signedURL _ _ _ => some signedURL
  | .create .. | .start .. | .poll .. | .downloadURL .. | .cancel .. | .authError | .incomplete _ =>
    none

namespace LogsExportLoop

variable {R : Type} (l : LogsExportLoop R)

/-- Every download among the calls is from a URL that was validated. -/
def Validated (env : ExportEnv) (calls : List ExportCall) : Prop :=
  ∀ c ∈ calls, ∀ signedURL, c.chunkURL? = some signedURL →
    l.validateSignedURLHost env.casing (env.parseURL signedURL) = .ok ()

section Calls

variable {l} {env : ExportEnv} {c : ExportCall} {calls calls' : List ExportCall}

theorem Validated.nil : l.Validated env [] := fun _ h => nomatch h

theorem Validated.cons (hc : c.chunkURL? = none) (h : l.Validated env calls) :
    l.Validated env (c :: calls) := by
  refine List.forall_mem_cons.mpr ⟨?_, h⟩
  intro signedURL hurl
  rw [hc] at hurl
  cases hurl

theorem Validated.append (h : l.Validated env calls) (h' : l.Validated env calls') :
    l.Validated env (calls ++ calls') := List.forall_mem_append.mpr ⟨h, h'⟩

/-- A request that is no download, and what its answer says of the credentials. -/
theorem Validated.asked {α : Type} (hc : c.chunkURL? = none) (answer : Except LifecycleError α) :
    l.Validated env (c :: authSignal answer) := by
  refine .cons hc ?_
  unfold authSignal
  split
  · split_ifs
    · exact .cons rfl .nil
    · exact .nil
  · exact .nil

theorem Validated.createExport {winMin winMax page : Int}
    {answer : Except LifecycleError (String × Int)}
    (h : l.createExport env winMin winMax page = (answer, calls)) : l.Validated env calls := by
  cases h
  exact .asked rfl _

end Calls

section Steps

variable (env : ExportEnv) (since : Watermark) (cur : ExportCursor)

theorem validated_stepIdle : l.Validated env (l.stepIdle env since).calls := by
  unfold stepIdle
  dsimp only
  split
  · exact .nil
  · split
    · rename_i hcreate
      exact .createExport hcreate
    · rename_i hcreate
      have hcalls := Validated.createExport hcreate
      split_ifs
      · exact hcalls
      · exact hcalls.append (.cons rfl .nil)
      · exact hcalls

theorem validated_stepCreated : l.Validated env (l.stepCreated env since cur).calls := by
  unfold stepCreated
  dsimp only
  split_ifs
  · split
    · exact .nil
    · split
      · rename_i hcreate
        exact .createExport hcreate
      · rename_i hcreate
        exact .createExport hcreate
  · split
    · exact .asked rfl _
    · split
      all_goals exact (Validated.asked rfl _).append (.asked rfl _)

theorem validated_stepPolling : l.Validated env (stepPolling env since cur).calls := by
  have hpoll : l.Validated env (.poll cur.jobID (env.poll cur.jobID) ::
      authSignal (env.poll cur.jobID)) := .asked rfl _
  unfold stepPolling
  dsimp only
  split
  · exact hpoll
  · exact hpoll
  · exact hpoll
  · split
    · split_ifs
      · exact hpoll.append (.cons rfl (.asked rfl _))
      · exact hpoll
    · exact hpoll
  · split
    · split_ifs
      · exact hpoll.append (.cons rfl (.asked rfl _))
      · exact hpoll
    · exact hpoll
  · exact hpoll.append (.cons rfl .nil)

/-- The one place that downloads has the URL validated before. -/
theorem validated_stepDownloading : l.Validated env (l.stepDownloading env since cur).calls := by
  unfold stepDownloading
  cases cur.windowBounds with
  | none => exact .nil
  | some bounds =>
    dsimp only
    cases hminted : env.downloadURL cur.jobID with
    | error err => exact .asked rfl _
    | ok minted =>
      dsimp only
      split_ifs
      · exact .asked rfl _
      · cases hvalid : l.validateSignedURLHost env.casing (env.parseURL minted) with
        | error err => exact .asked rfl _
        | ok _ =>
          have hchunk : ∀ answer, l.Validated env [.downloadChunk minted cur.pageOffsetDone
              cur.pageByteOffset answer] := by
            intro answer
            refine List.forall_mem_singleton.mpr fun signedURL hurl => ?_
            rw [← Option.some.inj hurl]
            exact hvalid
          dsimp only
          split
          · exact (Validated.asked rfl _).append (hchunk _)
          · split
            all_goals exact (Validated.asked rfl _).append (hchunk _)

theorem validated_step : l.Validated env (l.step env since cur).calls := by
  unfold step
  cases cur.phase with
  | created => exact l.validated_stepCreated env since cur
  | polling => exact l.validated_stepPolling env since cur
  | downloading => exact l.validated_stepDownloading env since cur
  | blocked =>
    unfold stepBlocked
    dsimp only
    split_ifs <;> exact .nil
  | idle => exact l.validated_stepIdle env since
  | other name => exact l.validated_stepIdle env since

end Steps

/-- What `validateSignedURLHost` has seen to. -/
theorem validateSignedURLHost_ok {casing : Casing} {parsed : Except String (String × String)}
    (h : l.validateSignedURLHost casing parsed = .ok ()) :
    ∃ scheme hostname, parsed = .ok (scheme, hostname) ∧
      (l.allowPrivate = false → casing.equalFold scheme "https" = true) ∧
      ∃ a ∈ l.signedURLAllowHosts, casing.toLower a = casing.toLower hostname := by
  cases parsed with
  | error err => cases h
  | ok url =>
    obtain ⟨scheme, hostname⟩ := url
    unfold validateSignedURLHost at h
    dsimp only at h
    split_ifs at h with hempty hscheme hlisted
    refine ⟨scheme, hostname, rfl, ?_, hlisted⟩
    intro hpublic
    by_contra hplain
    exact hscheme ⟨by simpa using hplain, by rw [hpublic]; rfl⟩

/-- **Objects are downloaded from listed hosts only.**  Whatever URL the server mints for an
export, and however the host it names answers: every request a step sends for the object goes to a
host the operator has listed for signed URLs, in whatever case it is written, also if none is listed,
over TLS unless private destinations are allowed, and was sent after its host was looked up and had
no address in a blocked network. -/
theorem signed_downloads_confined (env : ExportEnv) (since : Watermark) :
    ∀ c ∈ (l.collect env since).calls, ∀ signedURL, c.chunkURL? = some signedURL →
      ∃ scheme hostname, env.parseURL signedURL = .ok (scheme, hostname) ∧
        ∀ lookups limiter hops (i : Nat) v,
          (l.dlConfig.doRequest env.casing lookups limiter ⟨scheme, hostname⟩ hops).sent[i]? =
            some v →
          (∃ h ∈ l.signedURLAllowHosts, env.casing.toLower h = env.casing.toLower v.hostname) ∧
          (l.allowPrivate = false → env.casing.equalFold v.scheme "https" = true) ∧
          ∃ looked, (lookups :: hops.map Httpx.Hop.lookups)[i]? = some looked ∧ ∃ addrs,
            looked.addresses (env.casing.toLower v.hostname) = .ok addrs ∧ ∀ ip ∈ addrs,
              ip.length = 4 ∨ ip.length = 16 →
                ¬ Httpx.InNets (Httpx.blockedNets l.allowPrivate) ip := by
  intro c hc signedURL hurl
  obtain ⟨scheme, hostname, hparse, hscheme, a, ha, -⟩ :=
    l.validateSignedURLHost_ok (l.validated_step env since _ c hc signedURL hurl)
  refine ⟨scheme, hostname, hparse, ?_⟩
  intro lookups limiter hops i v hv
  obtain ⟨looked, hlooked, hconfined⟩ := (Httpx.sent_confined env.casing l.dlConfig lookups limiter
    ⟨scheme, hostname⟩ hops).2 i v hv
  refine ⟨hconfined.listed (List.ne_nil_of_mem ha), ?_, looked, hlooked, hconfined.unblocked⟩
  intro hpublic
  exact hconfined.encrypted (hscheme hpublic)

/-- A page that is downloaded is asked for at the listed host alone, also where the answer is a
redirect to that host, and each time after it was looked up. -/
theorem signed_downloads_confined_page :
    let lookups : Httpx.Lookups := ⟨fun _ => none, fun _ => .ok [[52, 216, 0, 1]]⟩
    let again : Httpx.Lookups := ⟨fun _ => none, fun _ => .ok [[52, 216, 0, 2]]⟩
    let x := (chunksOf 3).dlConfig.doRequest (rangeEnv []).casing lookups none
      ⟨"https", "objects"⟩ [⟨.redirect ⟨"https", "OBJECTS"⟩, again⟩, ⟨.response 200, again⟩]
    (∃ c ∈ ((chunksOf 3).collect (rangeEnv []) { cursor := firstChunk.encode }).calls,
      c.chunkURL? = some "https://objects/page") ∧
    x.sent = [⟨"https", "objects"⟩, ⟨"https", "OBJECTS"⟩] ∧
    ∃ addrs, again.addresses "objects" = .ok addrs ∧ ∀ ip ∈ addrs, ip.length = 4 ∨ ip.length = 16 →
      ¬ Httpx.InNets (Httpx.blockedNets false) ip := by
  intro lookups again x
  have hcall : ∃ c ∈ ((chunksOf 3).collect (rangeEnv []) { cursor := firstChunk.encode }).calls,
      c.chunkURL? = some "https://objects/page" := by decide +kernel
  have hsent : x.sent = [⟨"https", "objects"⟩, ⟨"https", "OBJECTS"⟩] := by decide +kernel
  refine ⟨hcall, hsent, ?_⟩
  obtain ⟨c, hc, hurl⟩ := hcall
  obtain ⟨scheme, hostname, hparse, hconfined⟩ :=
    signed_downloads_confined (chunksOf 3) (rangeEnv []) _ c hc _ hurl
  obtain ⟨rfl, rfl⟩ := Prod.mk.inj (Except.ok.inj hparse)
  -- the second request, with what was looked up before it
  obtain ⟨-, -, looked, hlooked, hunblocked⟩ := hconfined lookups none
    [⟨.redirect ⟨"https", "OBJECTS"⟩, again⟩, ⟨.response 200, again⟩] 1 ⟨"https", "OBJECTS"⟩
    (congrArg (·[1]?) hsent)
  obtain rfl : again = looked := Option.some.inj hlooked
  exact hunblocked

end LogsExportLoop

end GenaiBridge
