/-
IP addresses as byte strings, in the two forms an IPv4 address has.

An IPv4 address is four bytes, or sixteen of which the first twelve are those of
`::ffff:0:0`.  The predicates look through the second form (`to4`).  `text` is the usual
way to write an address: dotted numbers, or hexadecimal groups with the first longest
run of two or more zero groups left out.  Which address a text is of can be told by
cutting it at its separators, since no number or group holds one.

A network is a base address and a number of bits; what is in it is said by the number
an address is.
-/
import GenaiBridge.Lib.Decimal
import Mathlib.Data.List.Basic

namespace Lib

/-- The bytes of an address. -/
abbrev IP := List UInt8

namespace IP

/-! ### The form of an address -/

/-- The twelve bytes in front of an IPv4 address of sixteen. -/
def v4InV6Prefix : List UInt8 := [0, 0, 0, 0, 0, 0, 0, 0, 0, 0, 0xff, 0xff]

/-- The four bytes of an IPv4 address. -/
def to4 (ip : IP) : Option IP :=
  if ip.length = 4 then some ip
  else if ip.length = 16 ∧ ip.take 12 = v4InV6Prefix then some (ip.drop 12)
  else none

/-- The same address in either form. -/
def equal (ip x : IP) : Bool :=
  if ip.length = x.length then ip == x
  else if ip.length = 4 ∧ x.length = 16 then x.take 12 == v4InV6Prefix && ip == x.drop 12
  else if ip.length = 16 ∧ x.length = 4 then ip.take 12 == v4InV6Prefix && ip.drop 12 == x
  else false

/-- The bytes that count. -/
def canonical (ip : IP) : IP := (to4 ip).getD ip

/-! ### Predicates -/

/-- `127.0.0.0/8` and `::1`. -/
def isLoopback (ip : IP) : Bool :=
  match to4 ip with
  | some ip4 => ip4.getD 0 0 == 127
  | none => equal ip [0, 0, 0, 0, 0, 0, 0, 0, 0, 0, 0, 0, 0, 0, 0, 1]

/-- RFC 1918 and unique local addresses. -/
def isPrivate (ip : IP) : Bool :=
  match to4 ip with
  | some ip4 =>
    ip4.getD 0 0 == 10 || (ip4.getD 0 0 == 172 && ip4.getD 1 0 &&& 0xf0 == 16)
      || (ip4.getD 0 0 == 192 && ip4.getD 1 0 == 168)
  | none => ip.length == 16 && ip.getD 0 0 &&& 0xfe == 0xfc

/-- `0.0.0.0` and `::`. -/
def isUnspecified (ip : IP) : Bool :=
  equal ip (v4InV6Prefix ++ [0, 0, 0, 0]) || equal ip (List.replicate 16 0)

def isLinkLocalUnicast (ip : IP) : Bool :=
  match to4 ip with
  | some ip4 => ip4.getD 0 0 == 169 && ip4.getD 1 0 == 254
  | none => ip.length == 16 && ip.getD 0 0 == 0xfe && ip.getD 1 0 &&& 0xc0 == 0x80

def isLinkLocalMulticast (ip : IP) : Bool :=
  match to4 ip with
  | some ip4 => ip4.getD 0 0 == 224 && ip4.getD 1 0 == 0 && ip4.getD 2 0 == 0
  | none => ip.length == 16 && ip.getD 0 0 == 0xff && ip.getD 1 0 &&& 0x0f == 0x02

/-- The bytes of an address agree with those of a network where its mask has a one. -/
def maskContains (base mask : List UInt8) (ip : IP) : Bool :=
  let ip := canonical ip
  ip.length == base.length &&
    (ip.zip (base.zip mask)).all fun e => e.1 &&& e.2.2 == e.2.1 &&& e.2.2

/-! ### Texts -/

/-- A byte in decimal. -/
def octet (b : UInt8) : List Char := Nat.toDigits 10 b.toNat

/-- A hexadecimal digit. -/
def hexDigit (d : Nat) : Char := "0123456789abcdef".toList.getD d '0'

/-- A group in hexadecimal, without leading zeros. -/
def hexGroup (g : Nat) : List Char :=
  (if 0x1000 ≤ g then [hexDigit (g / 0x1000)] else []) ++
  (if 0x100 ≤ g then [hexDigit (g / 0x100 % 16)] else []) ++
  (if 0x10 ≤ g then [hexDigit (g / 0x10 % 16)] else []) ++ [hexDigit (g % 16)]

/-- The groups of two bytes. -/
def groups : IP → List Nat
  | a :: b :: rest => (a.toNat * 256 + b.toNat) :: groups rest
  | _ => []

/-- How many of the groups from `i` on are zero. -/
def zerosFrom (gs : List Nat) (i : Nat) : Nat := ((gs.drop i).takeWhile (· == 0)).length

/-- The first longest run of zero groups, if it is longer than one: where it begins and ends. -/
def zeroRun (gs : List Nat) : Option (Nat × Nat) :=
  (List.range gs.length).foldl (fun best i =>
    let l := zerosFrom gs i
    if 2 ≤ l ∧ (best.map fun r => r.2 - r.1).getD 0 < l then some (i, i + l) else best) none

/-- The words of an address between its colons; a side of the run without a group is an empty
word. -/
def words6 (gs : List Nat) : List (List Char) :=
  match zeroRun gs with
  | none => gs.map hexGroup
  | some (i, j) =>
    (if i = 0 then [[]] else (gs.take i).map hexGroup) ++ [[]] ++
      (if gs.length ≤ j then [[]] else (gs.drop j).map hexGroup)

/-- The text of an address. -/
def text (ip : IP) : List Char :=
  match to4 ip with
  | some ip4 => ['.'].intercalate (ip4.map octet)
  | none =>
    if ip.length = 16 then [':'].intercalate (words6 (groups ip))
    else '?' :: ip.flatMap fun b => [hexDigit (b.toNat / 16), hexDigit (b.toNat % 16)]

/-! ### Networks -/

/-- The number an address is. -/
def value (ip : IP) : Nat := ip.foldl (fun v b => v * 256 + b.toNat) 0

/-- A network: the addresses whose first `ones` bits are those of the base. -/
structure Net where
  base : IP
  ones : Nat

/-- An address is in a network. -/
def Net.Contains (n : Net) (ip : IP) : Prop :=
  ip.length = n.base.length ∧
    value ip / 2 ^ (8 * n.base.length - n.ones) = value n.base / 2 ^ (8 * n.base.length - n.ones)

/-! ### Four bytes -/

theorem length_of_to4 {ip ip4 : IP} (h : to4 ip = some ip4) : ip4.length = 4 := by
  unfold to4 at h
  split_ifs at h with h4 h16
  · obtain rfl := Option.some.inj h
    exact h4
  · obtain rfl := Option.some.inj h
    rw [List.length_drop, h16.1]

theorem canonical_of_some {ip ip4 : IP} (h : to4 ip = some ip4) : canonical ip = ip4 := by
  rw [canonical, h, Option.getD_some]

theorem canonical_of_none {ip : IP} (h : to4 ip = none) : canonical ip = ip := by
  rw [canonical, h, Option.getD_none]

/-- It is those four, or the twelve in front of them. -/
theorem eq_of_to4 {ip ip4 : IP} (h : to4 ip = some ip4) : ip = ip4 ∨ ip = v4InV6Prefix ++ ip4 := by
  unfold to4 at h
  split_ifs at h with h4 h16
  · exact Or.inl (Option.some.inj h)
  · right
    rw [← h16.2, ← Option.some.inj h, List.take_append_drop]

theorem equal_of_length {ip x : IP} (h : ip.length = x.length) : equal ip x = true ↔ ip = x := by
  rw [equal, if_pos h, beq_iff_eq]

/-! ### Which address a text is of -/

theorem octet_inj {a b : UInt8} (h : octet a = octet b) : a = b := by
  have hread : some a.toNat = some b.toNat := by
    rw [← readNat_toDigits, ← readNat_toDigits]
    exact congrArg readNat h
  exact UInt8.toNat_inj.mp (Option.some.inj hread)

theorem not_mem_octet {c : Char} (hc : c.isDigit = false) (b : UInt8) : c ∉ octet b := by
  intro hmem
  have := isDigit_of_mem_toDigits hmem
  rw [hc] at this
  cases this

/-- The words of a text with four bytes. -/
theorem splitOn_text_of_some {ip ip4 : IP} (h : to4 ip = some ip4) :
    (text ip).splitOn '.' = ip4.map octet := by
  have hne : ip4.map octet ≠ [] := by
    intro hnil
    have := length_of_to4 h
    rw [List.map_eq_nil_iff.mp hnil] at this
    cases this
  unfold text
  rw [h]
  refine List.splitOn_intercalate '.' ?_ hne
  intro w hw
  obtain ⟨b, -, rfl⟩ := List.mem_map.mp hw
  exact not_mem_octet (by decide) b

/-- The value of a hexadecimal digit. -/
private def hexValue (c : Char) : Nat := "0123456789abcdef".toList.idxOf c

private theorem hexValue_hexDigit {d : Nat} (h : d < 16) : hexValue (hexDigit d) = d := by
  have hall : ∀ d : Fin 16, hexValue (hexDigit d.val) = d.val := by decide
  exact hall ⟨d, h⟩

private theorem hexDigit_ne_colon (d : Nat) : hexDigit d ≠ ':' := by
  by_cases h : d < 16
  · have hall : ∀ d : Fin 16, hexDigit d.val ≠ ':' := by decide
    exact hall ⟨d, h⟩
  · have hlen : "0123456789abcdef".toList.length ≤ d := by
      change 16 ≤ d
      omega
    rw [hexDigit, List.getD_eq_getElem?_getD, List.getElem?_eq_none hlen, Option.getD_none]
    decide

/-- Read a group. -/
private def readGroup (l : List Char) : Nat := l.foldl (fun v c => v * 16 + hexValue c) 0

private theorem readGroup_hexGroup {g : Nat} (h : g < 65536) : readGroup (hexGroup g) = g := by
  unfold hexGroup readGroup
  have h3 := hexValue_hexDigit (d := g / 0x1000) (by omega)
  have h2 := hexValue_hexDigit (d := g / 0x100 % 16) (by omega)
  have h1 := hexValue_hexDigit (d := g / 0x10 % 16) (by omega)
  have h0 := hexValue_hexDigit (d := g % 16) (by omega)
  split_ifs with c3 c2 c1
  all_goals
    simp only [List.nil_append, List.cons_append, List.foldl_cons, List.foldl_nil, h3, h2, h1, h0]
    omega

theorem hexGroup_ne_nil (g : Nat) : hexGroup g ≠ [] := by
  unfold hexGroup
  exact List.append_ne_nil_of_right_ne_nil _ (List.cons_ne_nil _ _)

theorem colon_not_mem_hexGroup (g : Nat) : ':' ∉ hexGroup g := by
  have hne : ∀ d, ':' ≠ hexDigit d := fun d => (hexDigit_ne_colon d).symm
  unfold hexGroup
  split_ifs <;> simp [hne]

theorem map_hexGroup_inj {l l' : List Nat} (hl : ∀ g ∈ l, g < 65536) (hl' : ∀ g ∈ l', g < 65536)
    (h : l.map hexGroup = l'.map hexGroup) : l = l' := by
  have hread : ∀ {l : List Nat}, (∀ g ∈ l, g < 65536) → (l.map hexGroup).map readGroup = l := by
    intro l hl
    rw [List.map_map]
    exact (List.map_congr_left fun g hg => readGroup_hexGroup (hl g hg)).trans (List.map_id l)
  rw [← hread hl, h, hread hl']

/-- What is left out of a text are zero groups. -/
theorem zeroRun_some {gs : List Nat} {i j : Nat} (h : zeroRun gs = some (i, j)) :
    gs = gs.take i ++ List.replicate (j - i) 0 ++ gs.drop j := by
  have hrun : ∀ (l : List Nat) (best : Option (Nat × Nat)),
      (∀ r, best = some r → r.2 = r.1 + zerosFrom gs r.1) →
      ∀ r, l.foldl (fun best i =>
          let l := zerosFrom gs i
          if 2 ≤ l ∧ (best.map fun r => r.2 - r.1).getD 0 < l then some (i, i + l) else best) best =
        some r → r.2 = r.1 + zerosFrom gs r.1 := by
    intro l
    induction l with
    | nil => intro best hbest; exact hbest
    | cons k l ih =>
      intro best hbest
      rw [List.foldl_cons]
      refine ih _ ?_
      intro r hr
      dsimp only at hr
      split_ifs at hr
      · obtain rfl := Option.some.inj hr
        rfl
      · exact hbest r hr
  have hj : j = i + zerosFrom gs i := hrun _ none (by intro r hr; cases hr) (i, j) h
  have hsplit := List.takeWhile_append_dropWhile (p := (· == 0)) (l := gs.drop i)
  have hzeros : (gs.drop i).takeWhile (· == 0) = List.replicate (j - i) 0 := by
    refine List.eq_replicate_iff.mpr ⟨by rw [hj, Nat.add_sub_cancel_left]; rfl, ?_⟩
    intro g hg
    exact beq_iff_eq.mp (List.all_eq_true.mp List.all_takeWhile g hg)
  have hrest : gs.drop j = (gs.drop i).dropWhile (· == 0) := by
    have hdrop : (gs.drop i).drop (zerosFrom gs i) = (gs.drop i).dropWhile (· == 0) := by
      conv_lhs => rw [← hsplit]
      exact List.drop_left
    rw [← hdrop, List.drop_drop, hj]
  rw [hrest, ← hzeros, List.append_assoc, hsplit, List.take_append_drop]

/-- A text with a run between two groups is of the groups on its sides and zeros. -/
theorem eq_of_words6 {gs left right : List Nat} (hgs : ∀ g ∈ gs, g < 65536)
    (hl : ∀ g ∈ left, g < 65536) (hr : ∀ g ∈ right, g < 65536) (hleft : left ≠ [])
    (hright : right ≠ [])
    (h : words6 gs = left.map hexGroup ++ [] :: right.map hexGroup) :
    gs = left ++ List.replicate (gs.length - left.length - right.length) 0 ++ right := by
  have hnil : ∀ l : List Nat, [] ∉ l.map hexGroup := by
    intro l hmem
    obtain ⟨g, -, hg⟩ := List.mem_map.mp hmem
    exact hexGroup_ne_nil g hg
  unfold words6 at h
  cases hrun : zeroRun gs with
  | none =>
    rw [hrun] at h
    dsimp only at h
    refine absurd ?_ (hnil gs)
    rw [h]
    exact List.mem_append_right _ List.mem_cons_self
  | some r =>
    obtain ⟨i, j⟩ := r
    rw [hrun] at h
    dsimp only at h
    by_cases hi : i = 0
    · -- the first word would be empty
      rw [if_pos hi] at h
      cases left with
      | nil => exact absurd rfl hleft
      | cons g left => exact absurd (List.cons.inj h).1.symm (hexGroup_ne_nil g)
    · rw [if_neg hi, List.append_assoc, List.singleton_append] at h
      obtain ⟨htake, -, hdrop⟩ :=
        (List.append_cons_inj_of_notMem (hnil left) (hnil right)).mp h.symm
      by_cases hj : gs.length ≤ j
      · rw [if_pos hj] at hdrop
        cases right with
        | nil => exact absurd rfl hright
        | cons g right => exact absurd (List.cons.inj hdrop).1 (hexGroup_ne_nil g)
      · rw [if_neg hj] at hdrop
        have htake := map_hexGroup_inj (fun g hg => hgs g (List.mem_of_mem_take hg)) hl htake.symm
        have hdrop := map_hexGroup_inj (fun g hg => hgs g (List.mem_of_mem_drop hg)) hr hdrop.symm
        have heq := zeroRun_some hrun
        rw [htake, hdrop] at heq
        have hlen := congrArg List.length heq
        rw [List.length_append, List.length_append, List.length_replicate] at hlen
        rw [show gs.length - left.length - right.length = j - i by omega]
        exact heq

theorem groups_lt : ∀ (ip : IP), ∀ g ∈ groups ip, g < 65536 := by
  intro ip
  induction ip using groups.induct with
  | case1 a b rest ih =>
    intro g hg
    rw [groups] at hg
    rcases List.mem_cons.mp hg with rfl | hg
    · have ha := a.toNat_lt
      have hb := b.toNat_lt
      omega
    · exact ih g hg
  | case2 ip hip =>
    intro g hg
    rw [groups] at hg
    · cases hg
    · exact hip

theorem colon_not_mem_words6 (gs : List Nat) : ∀ w ∈ words6 gs, ':' ∉ w := by
  have hmap : ∀ l : List Nat, ∀ w ∈ l.map hexGroup, ':' ∉ w := by
    intro l w hw
    obtain ⟨g, -, rfl⟩ := List.mem_map.mp hw
    exact colon_not_mem_hexGroup g
  have hnil : ∀ w ∈ ([[]] : List (List Char)), ':' ∉ w := by simp
  unfold words6
  split
  · exact hmap gs
  · refine List.forall_mem_append.mpr ⟨List.forall_mem_append.mpr ⟨?_, hnil⟩, ?_⟩
    · split_ifs
      · exact hnil
      · exact hmap _
    · split_ifs
      · exact hnil
      · exact hmap _

theorem length_groups : ∀ (ip : IP), (groups ip).length = ip.length / 2 := by
  intro ip
  induction ip using groups.induct with
  | case1 a b rest ih =>
    rw [groups, List.length_cons, ih, List.length_cons, List.length_cons]
    omega
  | case2 ip hip =>
    rw [groups]
    · cases ip with
      | nil => rfl
      | cons a rest =>
        cases rest with
        | nil => exact (Nat.div_eq_of_lt (Nat.lt_succ_self 1)).symm
        | cons b rest => exact absurd rfl (hip a b rest)
    · exact hip

/-- A text with sixteen bytes has at least two colons. -/
theorem three_le_length_words6 {gs : List Nat} (h : gs.length = 8) : 3 ≤ (words6 gs).length := by
  unfold words6
  cases hrun : zeroRun gs with
  | none =>
    dsimp only
    rw [List.length_map, h]
    omega
  | some r =>
    obtain ⟨i, j⟩ := r
    dsimp only
    rw [List.length_append, List.length_append, List.length_singleton]
    have hleft : 1 ≤ (if i = 0 then [[]] else (gs.take i).map hexGroup).length := by
      split_ifs with hi
      · exact le_refl 1
      · rw [List.length_map, List.length_take]
        omega
    have hright : 1 ≤ (if gs.length ≤ j then [[]] else (gs.drop j).map hexGroup).length := by
      split_ifs with hj
      · exact le_refl 1
      · rw [List.length_map, List.length_drop]
        omega
    omega

/-- The words of a text with sixteen bytes. -/
theorem splitOn_text_of_none {ip : IP} (h : to4 ip = none) (hlen : ip.length = 16) :
    (text ip).splitOn ':' = words6 (groups ip) := by
  have hne : words6 (groups ip) ≠ [] := by
    intro hnil
    have hthree := @three_le_length_words6 (groups ip) (by rw [length_groups, hlen])
    rw [hnil] at hthree
    cases hthree
  unfold text
  rw [h]
  dsimp only
  rw [if_pos hlen]
  exact List.splitOn_intercalate ':' (colon_not_mem_words6 _) hne

theorem groups_inj : ∀ {ip ip' : IP}, ip.length = ip'.length → ip.length % 2 = 0 →
    groups ip = groups ip' → ip = ip' := by
  intro ip
  induction ip using groups.induct with
  | case1 a b rest ih =>
    intro ip' hlen heven h
    cases ip' with
    | nil => cases hlen
    | cons a' rest' =>
      cases rest' with
      | nil => simp at hlen
      | cons b' rest' =>
        rw [groups, groups] at h
        obtain ⟨hg, htail⟩ := List.cons.inj h
        have hb := b.toNat_lt
        have hb' := b'.toNat_lt
        have haa : a = a' := UInt8.toNat_inj.mp (by omega)
        have hbb : b = b' := UInt8.toNat_inj.mp (by omega)
        simp only [List.length_cons] at hlen heven
        rw [haa, hbb, ih (by omega) (by omega) htail]
  | case2 ip hip =>
    intro ip' hlen heven _
    cases ip with
    | nil => exact (List.length_eq_zero_iff.mp hlen.symm).symm
    | cons a rest =>
      cases rest with
      | nil => simp at heven
      | cons b rest => exact absurd rfl (hip a b rest)

/-! ### Networks by their first bytes -/

theorem value_cons (a : UInt8) (l : IP) : value (a :: l) = a.toNat * 2 ^ (8 * l.length) + value l := by
  have hfold : ∀ (l : IP) (v : Nat), l.foldl (fun v b => v * 256 + b.toNat) v =
      v * 2 ^ (8 * l.length) + value l := by
    intro l
    induction l with
    | nil => intro v; simp [value]
    | cons b l ih =>
      intro v
      unfold value
      rw [List.foldl_cons, List.foldl_cons, ih, ih, List.length_cons, Nat.mul_add, Nat.pow_add]
      simp only [Nat.zero_mul, Nat.zero_add, Nat.mul_one]
      rw [Nat.add_mul, Nat.mul_assoc, Nat.mul_comm 256 (2 ^ (8 * l.length)), Nat.add_assoc]
  unfold value
  rw [List.foldl_cons, hfold]
  simp only [Nat.zero_mul, Nat.zero_add]
  rfl

theorem value_lt : ∀ (l : IP), value l < 2 ^ (8 * l.length) := by
  intro l
  induction l with
  | nil => exact Nat.zero_lt_one
  | cons a l ih =>
    have ha := a.toNat_lt
    rw [value_cons, List.length_cons, Nat.mul_add, Nat.pow_add]
    calc a.toNat * 2 ^ (8 * l.length) + value l
        < a.toNat * 2 ^ (8 * l.length) + 2 ^ (8 * l.length) := by omega
      _ = (a.toNat + 1) * 2 ^ (8 * l.length) := by rw [Nat.add_mul, Nat.one_mul]
      _ ≤ 256 * 2 ^ (8 * l.length) := Nat.mul_le_mul_right _ (by omega)
      _ = 2 ^ (8 * l.length) * 2 ^ (8 * 1) := Nat.mul_comm _ _

private theorem mul_add_inj {m a b x y : Nat} (hx : x < m) (hy : y < m)
    (h : a * m + x = b * m + y) : a = b ∧ x = y := by
  have hm : 0 < m := by omega
  have hdiv : (m * a + x) / m = (m * b + y) / m := by rw [Nat.mul_comm m, h, Nat.mul_comm m]
  rw [Nat.mul_add_div hm, Nat.mul_add_div hm, Nat.div_eq_of_lt hx, Nat.div_eq_of_lt hy] at hdiv
  obtain rfl : a = b := hdiv
  exact ⟨rfl, Nat.add_left_cancel h⟩

/-- A network of eight bits or more fixes the first byte. -/
theorem contains_cons {a b : UInt8} {l base : IP} {ones : Nat} (hones : 8 ≤ ones) :
    Net.Contains ⟨b :: base, ones⟩ (a :: l) ↔ a = b ∧ Net.Contains ⟨base, ones - 8⟩ l := by
  unfold Net.Contains
  dsimp only
  rw [List.length_cons, List.length_cons]
  by_cases hlen : l.length = base.length
  · rw [show 8 * (base.length + 1) - ones = 8 * base.length - (ones - 8) by omega]
    -- cut the number into the first byte, the other bits of the network and the rest
    generalize hk : 8 * base.length - (ones - 8) = k
    have hpow : 2 ^ (8 * base.length) = 2 ^ k * 2 ^ (8 * base.length - k) := by
      rw [← Nat.pow_add]
      congr 1
      omega
    have hcut : ∀ (x : UInt8) (y : IP), y.length = base.length →
        value (x :: y) / 2 ^ k = x.toNat * 2 ^ (8 * base.length - k) + value y / 2 ^ k ∧
          value y / 2 ^ k < 2 ^ (8 * base.length - k) := by
      intro x y hy
      have hlt := value_lt y
      rw [hy, hpow] at hlt
      refine ⟨?_, Nat.div_lt_of_lt_mul hlt⟩
      rw [value_cons, hy, hpow, Nat.mul_left_comm, Nat.mul_add_div (Nat.two_pow_pos k)]
    obtain ⟨hleft, hltl⟩ := hcut a l hlen
    obtain ⟨hright, hltr⟩ := hcut b base rfl
    rw [hleft, hright]
    constructor
    · intro h
      obtain ⟨hab, hrest⟩ := mul_add_inj hltl hltr h.2
      exact ⟨UInt8.toNat_inj.mp hab, hlen, hrest⟩
    · rintro ⟨rfl, -, hrest⟩
      exact ⟨by rw [hlen], by rw [hrest]⟩
  · constructor
    · intro h
      exact absurd (Nat.succ.inj h.1) hlen
    · intro h
      exact absurd h.2.1 hlen

/-- A network of fewer than eight bits fixes bits of the first byte. -/
theorem contains_cons_of_lt {a b : UInt8} {l base : IP} {ones : Nat} (hones : ones < 8) :
    Net.Contains ⟨b :: base, ones⟩ (a :: l) ↔
      l.length = base.length ∧ a.toNat / 2 ^ (8 - ones) = b.toNat / 2 ^ (8 - ones) := by
  unfold Net.Contains
  dsimp only
  rw [List.length_cons, List.length_cons, Nat.succ_inj]
  refine and_congr_right fun hlen => ?_
  have hcut : ∀ (x : UInt8) (y : IP), y.length = base.length →
      value (x :: y) / 2 ^ (8 * (base.length + 1) - ones) = x.toNat / 2 ^ (8 - ones) := by
    intro x y hy
    have hlt := value_lt y
    rw [hy] at hlt
    rw [show 8 * (base.length + 1) - ones = 8 * base.length + (8 - ones) by omega, Nat.pow_add,
      ← Nat.div_div_eq_div_mul, value_cons, hy, Nat.mul_comm, Nat.mul_add_div (Nat.two_pow_pos _),
      Nat.div_eq_of_lt hlt, Nat.add_zero]
  rw [hcut a l hlen, hcut b base rfl]

/-- A network of no bits holds every address of its length. -/
theorem contains_zero {l base : IP} : Net.Contains ⟨base, 0⟩ l ↔ l.length = base.length := by
  unfold Net.Contains
  dsimp only
  refine ⟨fun h => h.1, fun hlen => ⟨hlen, ?_⟩⟩
  have hl := value_lt l
  rw [hlen] at hl
  rw [Nat.sub_zero, Nat.div_eq_of_lt hl, Nat.div_eq_of_lt (value_lt base)]

/-- A network of all bits holds its base. -/
theorem contains_full : ∀ {base l : IP}, Net.Contains ⟨base, 8 * base.length⟩ l ↔ l = base := by
  intro base
  induction base with
  | nil =>
    intro l
    exact contains_zero.trans List.length_eq_zero_iff
  | cons b base ih =>
    intro l
    cases l with
    | nil => exact ⟨fun h => absurd h.1.symm (Nat.succ_ne_zero _), fun h => nomatch h⟩
    | cons a l =>
      rw [contains_cons (by rw [List.length_cons]; omega), List.length_cons,
        show 8 * (base.length + 1) - 8 = 8 * base.length by omega, ih, List.cons.injEq]

theorem not_contains_nil {b : UInt8} {base : IP} {ones : Nat} :
    ¬ Net.Contains ⟨b :: base, ones⟩ [] := fun h => Nat.succ_ne_zero _ h.1.symm

end IP

end Lib
