import Letterbox.Net.Address
import Letterbox.Proofs.Text.Cuts
import Letterbox.Proofs.Text.LetterCase

/-!
# Addresses there and back

An address that is written is read back as it was. For IPv6 this is shown for any run of zero
groups that is left out, so it does not matter that the writer takes the first of the longest
ones. A name is no address, as an address has a dot or a colon.
-/

namespace Letterbox

set_option autoImplicit false

open Text

/-! ## Digits -/

section Digits
variable {base n : Nat} {c : Char}

theorem exists_digitChar_of_mem_toDigits (hbase : 1 < base) (h : c ∈ Nat.toDigits base n) :
    ∃ d, d < base ∧ c = Nat.digitChar d := by
  induction n using Nat.strongRecOn with
  | _ n ih =>
    rw [Nat.toDigits_eq_if hbase] at h
    split at h
    · rename_i hn
      exact ⟨n, hn, List.mem_singleton.mp h⟩
    · rename_i hn
      rcases List.mem_append.mp h with h | h
      · exact ih (n / base) (Nat.div_lt_self (by omega) hbase) h
      · exact ⟨n % base, Nat.mod_lt n (by omega), List.mem_singleton.mp h⟩

/-- A digit is no blank and no separator. -/
theorem digit_of_mem (hbase : 1 < base) (hbase' : base ≤ 16) (h : c ∈ Nat.toDigits base n) :
    isBlank c = false ∧ c ≠ '.' ∧ c ≠ ':' := by
  obtain ⟨d, hd, rfl⟩ := exists_digitChar_of_mem_toDigits hbase h
  have hall : ∀ d : Fin 16, isBlank (Nat.digitChar d) = false ∧ Nat.digitChar d ≠ '.' ∧
      Nat.digitChar d ≠ ':' := by decide
  exact hall ⟨d, by omega⟩

theorem dot_not_mem_toDigits (hbase : 1 < base) (hbase' : base ≤ 16) :
    '.' ∉ Nat.toDigits base n := fun h => (digit_of_mem hbase hbase' h).2.1 rfl

theorem colon_not_mem_toDigits (hbase : 1 < base) (hbase' : base ≤ 16) :
    ':' ∉ Nat.toDigits base n := fun h => (digit_of_mem hbase hbase' h).2.2 rfl

end Digits

theorem octet?_toDigits (b : UInt8) : octet? (Nat.toDigits 10 b.toNat) = some b := by
  have hall : ∀ n : Fin 256, octet? (Nat.toDigits 10 n) = some n.1.toUInt8 := by decide +kernel
  have hb := hall ⟨b.toNat, b.toNat_lt⟩
  rwa [Nat.toUInt8_eq, UInt8.ofNat_toNat] at hb

namespace V4

def ofGroups (g h : UInt16) : V4 :=
  ⟨(g.toNat / 256).toUInt8, g.toUInt8, (h.toNat / 256).toUInt8, h.toUInt8⟩

variable (x : V4)

theorem mem_toText {c : Char} (h : c ∈ x.toText) : isBlank c = false ∧ c ≠ ':' := by
  have hdigit : ∀ {n}, c ∈ Nat.toDigits 10 n → isBlank c = false ∧ c ≠ ':' :=
    fun hc => (digit_of_mem (by decide) (by decide) hc).imp_right And.right
  simp only [toText, List.mem_append, List.mem_cons] at h
  rcases h with h | rfl | h | rfl | h | rfl | h
  · exact hdigit h
  · decide
  · exact hdigit h
  · decide
  · exact hdigit h
  · decide
  · exact hdigit h

/-- The four numbers behind any text that has no dot. -/
theorem splitAt_dot {cs : List Char} (h : '.' ∉ cs) (b c d : Nat) :
    splitAt '.' (cs ++ '.' :: (Nat.toDigits 10 b ++ '.' :: (Nat.toDigits 10 c ++
      '.' :: Nat.toDigits 10 d))) =
      [cs, Nat.toDigits 10 b, Nat.toDigits 10 c, Nat.toDigits 10 d] := by
  have hdigits : ∀ n, '.' ∉ Nat.toDigits 10 n :=
    fun n => dot_not_mem_toDigits (by decide) (by decide)
  rw [splitAt_append h, splitAt_append (hdigits b), splitAt_append (hdigits c),
    splitAt_of_not_mem (hdigits d)]

theorem ofText?_toText : ofText? x.toText = some x := by
  rw [ofText?, toText, splitAt_dot (dot_not_mem_toDigits (by decide) (by decide))]
  simp only [octet?_toDigits]
  rfl

theorem ofText?_of_dot_not_mem {cs : List Char} (h : '.' ∉ cs) : ofText? cs = none := by
  rw [ofText?, splitAt_of_not_mem h]

end V4

namespace V6

/-! ## Groups -/

theorem foldlM_toDigits (n : Nat) :
    (Nat.toDigits 16 n).foldlM (fun n c => (hexDigit? c).map (n * 16 + ·)) 0 = some n := by
  have hdigit : ∀ d : Fin 16, hexDigit? (Nat.digitChar d) = some d.1 := by decide
  induction n using Nat.strongRecOn with
  | _ n ih =>
    rw [Nat.toDigits_eq_if (by decide)]
    split
    · rename_i hn
      simp only [List.foldlM_cons, List.foldlM_nil, hdigit ⟨n, hn⟩, Option.bind_eq_bind,
        Option.bind_some, Option.map_some, Option.pure_def, Nat.zero_mul, Nat.zero_add]
    · rename_i hn
      have hlast := hdigit ⟨n % 16, Nat.mod_lt n (by decide)⟩
      rw [List.foldlM_append, ih (n / 16) (by omega)]
      simp only [List.foldlM_cons, List.foldlM_nil, hlast, Option.bind_eq_bind, Option.bind_some,
        Option.map_some, Option.pure_def, Option.some.injEq]
      omega

theorem group?_toDigits (g : UInt16) : group? (Nat.toDigits 16 g.toNat) = some g := by
  have hlow := Nat.length_toDigits_pos (b := 16) (n := g.toNat)
  have hhigh : (Nat.toDigits 16 g.toNat).length ≤ 4 :=
    (Nat.length_toDigits_le_iff (by decide) (by decide)).mpr g.toNat_lt
  rw [group?, if_neg (by omega), foldlM_toDigits, Option.map_some, Nat.toUInt16_eq,
    UInt16.ofNat_toNat]

variable (g : UInt16) (gs : List UInt16)

theorem groupsText_cons_cons (h : UInt16) :
    groupsText (g :: h :: gs) = Nat.toDigits 16 g.toNat ++ ':' :: groupsText (h :: gs) := by
  simp only [groupsText, List.map_cons, List.intercalate_cons_cons, List.append_assoc,
    List.singleton_append]

/-- The text of some groups begins with a digit. -/
theorem exists_groupsText_cons :
    ∃ c cs, groupsText (g :: gs) = c :: cs ∧ c ≠ ':' := by
  obtain ⟨c, cs, hcs⟩ := List.exists_cons_of_ne_nil (Nat.toDigits_ne_nil (n := g.toNat) (b := 16))
  have hc : c ≠ ':' :=
    (digit_of_mem (by decide) (by decide) (hcs ▸ List.mem_cons_self (a := c) (l := cs))).2.2
  cases gs with
  | nil =>
    refine ⟨c, cs, ?_, hc⟩
    rw [groupsText, List.map_singleton, List.intercalate_singleton, hcs]
  | cons h gs =>
    exact ⟨c, cs ++ ':' :: groupsText (h :: gs), by rw [groupsText_cons_cons, hcs]; rfl, hc⟩

theorem isEmpty_groupsText : (groupsText (g :: gs)).isEmpty = false := by
  obtain ⟨c, cs, hcs, -⟩ := exists_groupsText_cons g gs
  rw [hcs, List.isEmpty_cons]

theorem splitAt_groupsText :
    splitAt ':' (groupsText (g :: gs)) = (g :: gs).map fun g => Nat.toDigits 16 g.toNat := by
  rw [groupsText, List.map_cons]
  apply splitAt_intercalate
  intro w hw
  rw [← List.map_cons (f := fun g : UInt16 => Nat.toDigits 16 g.toNat)] at hw
  obtain ⟨h, -, rfl⟩ := List.mem_map.mp hw
  exact colon_not_mem_toDigits (by decide) (by decide)

theorem mem_groupsText {gs : List UInt16} {c : Char} (h : c ∈ groupsText gs) :
    isBlank c = false ∧ c ≠ '.' := by
  induction gs with
  | nil => cases h
  | cons g gs ih =>
    cases gs with
    | nil =>
      rw [groupsText, List.map_singleton, List.intercalate_singleton] at h
      exact (digit_of_mem (by decide) (by decide) h).imp_right And.left
    | cons h' gs =>
      rw [groupsText_cons_cons, List.mem_append, List.mem_cons] at h
      rcases h with h | rfl | h
      · exact (digit_of_mem (by decide) (by decide) h).imp_right And.left
      · decide
      · exact ih h

theorem mapM_group? : (gs.map fun g => Nat.toDigits 16 g.toNat).mapM group? = some gs := by
  induction gs with
  | nil => rfl
  | cons g gs ih =>
    rw [List.map_cons, List.mapM_cons, group?_toDigits, ih]
    rfl

theorem front?_groupsText : front? (groupsText gs) = some gs := by
  cases gs with
  | nil => rfl
  | cons g gs =>
    rw [front?, isEmpty_groupsText, splitAt_groupsText, mapM_group?]
    rfl

theorem groups?_map : groups? (gs.map fun g => Nat.toDigits 16 g.toNat) = some gs := by
  induction gs with
  | nil => rfl
  | cons g gs ih =>
    cases gs with
    | nil =>
      have hnot : V4.ofText? (Nat.toDigits 16 g.toNat) = none :=
        V4.ofText?_of_dot_not_mem (dot_not_mem_toDigits (by decide) (by decide))
      simp only [List.map_singleton, groups?, hnot, group?_toDigits, Option.map_some]
    | cons h gs =>
      rw [List.map_cons] at ih
      simp only [List.map_cons, groups?, group?_toDigits, ih]
      rfl

theorem side?_groupsText : side? (groupsText gs) = some gs := by
  cases gs with
  | nil => rfl
  | cons g gs =>
    rw [side?, isEmpty_groupsText, splitAt_groupsText, groups?_map]
    rfl

/-! ## Where the text is cut -/

theorem cutDouble_cons {c : Char} (hc : c ≠ ':') (cs : List Char) :
    cutDouble (c :: cs) = (cutDouble cs).map fun (before, after) => (c :: before, after) := by
  apply cutDouble.eq_2
  rintro rest rfl
  exact absurd rfl hc

theorem cutDouble_colon {c : Char} (hc : c ≠ ':') (cs : List Char) :
    cutDouble (':' :: c :: cs) =
      (cutDouble (c :: cs)).map fun (before, after) => (':' :: before, after) := by
  apply cutDouble.eq_2
  rintro rest - heq
  exact hc (List.cons.inj heq).1

theorem cutDouble_append {w : List Char} (h : ':' ∉ w) (rest : List Char) :
    cutDouble (w ++ rest) = (cutDouble rest).map fun (before, after) => (w ++ before, after) := by
  induction w with
  | nil => exact Option.map_id'.symm
  | cons c w ih =>
    rw [List.mem_cons, not_or] at h
    rw [List.cons_append, cutDouble_cons (Ne.symm h.1), ih h.2, Option.map_map]
    rfl

/-- Groups have no two colons side by side. -/
theorem cutDouble_groupsText (rest : List Char) :
    cutDouble (groupsText gs ++ rest) =
      (cutDouble rest).map fun (before, after) => (groupsText gs ++ before, after) := by
  induction gs with
  | nil => exact Option.map_id'.symm
  | cons g gs ih =>
    have hcolon : ':' ∉ Nat.toDigits 16 g.toNat := colon_not_mem_toDigits (by decide) (by decide)
    cases gs with
    | nil =>
      rw [groupsText, List.map_singleton, List.intercalate_singleton]
      exact cutDouble_append hcolon rest
    | cons h gs =>
      -- A digit stands behind the colon, so the cut is not made there.
      obtain ⟨c, cs, hcs, hc⟩ := exists_groupsText_cons h gs
      rw [groupsText_cons_cons, List.append_assoc, cutDouble_append hcolon]
      rw [hcs, List.cons_append] at ih
      rw [hcs, List.cons_append, List.cons_append, cutDouble_colon hc, ih, Option.map_map,
        Option.map_map]
      apply congrArg (Option.map · (cutDouble rest))
      funext cut
      simp only [Function.comp_apply, List.append_assoc, List.cons_append]

theorem ofText?_groupsText (h8 : gs.length = 8) : ofText? (groupsText gs) = some ⟨gs, h8⟩ := by
  have hcut := cutDouble_groupsText gs []
  rw [List.append_nil] at hcut
  rw [ofText?, hcut]
  simp only [cutDouble, Option.map_none, side?_groupsText, Option.bind_eq_bind, Option.bind_some,
    ofGroups?, dif_pos h8]

/-- Zero groups that are left out are found again, as there are eight in all. -/
theorem ofText?_double {front back : List UInt16} {n : Nat} (hn : 0 < n)
    (h8 : (front ++ List.replicate n 0 ++ back).length = 8) :
    ofText? (groupsText front ++ ':' :: ':' :: groupsText back) =
      some ⟨front ++ List.replicate n 0 ++ back, h8⟩ := by
  have hlen : front.length + n + back.length = 8 := by
    rwa [List.length_append, List.length_append, List.length_replicate] at h8
  have hfill : 8 - front.length - back.length = n := by omega
  rw [ofText?, cutDouble_groupsText]
  simp only [cutDouble, Option.map_some, List.append_nil, front?_groupsText, side?_groupsText,
    Option.bind_eq_bind, Option.bind_some]
  rw [ofSides?, if_pos (by omega), hfill, ofGroups?, dif_pos h8]

/-! ## The run that is left out -/

theorem replicate_zerosInFront :
    gs = List.replicate (zerosInFront gs) 0 ++ gs.dropWhile (· == 0) := by
  have hzeros : gs.takeWhile (· == 0) = List.replicate (zerosInFront gs) 0 := by
    rw [List.eq_replicate_iff]
    exact ⟨rfl, fun g hg => beq_iff_eq.mp (List.mem_takeWhile_imp (p := (· == 0)) hg)⟩
  rw [← hzeros, List.takeWhile_append_dropWhile]

/-- The run is one of zero groups, and it is where it is said to be. -/
theorem exists_longestRun (i : Nat) :
    ∃ front back, gs = front ++ List.replicate (longestRun i gs).length 0 ++ back ∧
      (longestRun i gs).start = i + front.length := by
  induction gs generalizing i with
  | nil => exact ⟨[], [], rfl, rfl⟩
  | cons g gs ih =>
    simp only [longestRun]
    split
    · obtain ⟨front, back, hgs, hstart⟩ := ih (i + 1)
      refine ⟨g :: front, back, ?_, ?_⟩
      · rw [List.cons_append, List.cons_append, ← hgs]
      · rw [hstart, List.length_cons]
        omega
    · exact ⟨[], (g :: gs).dropWhile (· == 0), replicate_zerosInFront (g :: gs), rfl⟩

/-- A group is made of its two bytes. -/
theorem bytes_group :
    (g.toNat / 256).toUInt8.toUInt16 * 256 + g.toUInt8.toUInt16 = g := by
  have hg := g.toNat_lt
  have h256 : (256 : UInt16).toNat = 256 := rfl
  apply UInt16.toNat_inj.mp
  simp only [UInt16.toNat_add, UInt16.toNat_mul, UInt8.toNat_toUInt16, Nat.toUInt8_eq,
    UInt8.toNat_ofNat', UInt16.toNat_toUInt8, h256]
  omega

/-! ## The whole text -/

theorem ofText?_mapped (h : UInt16) :
    ofText? ("::ffff:".toList ++ (V4.ofGroups g h).toText) =
      some ⟨[0, 0, 0, 0, 0, 0xFFFF, g, h], rfl⟩ := by
  generalize hx : V4.ofGroups g h = x
  have hsplit : splitAt ':' ("ffff".toList ++ ':' :: x.toText) = ["ffff".toList, x.toText] := by
    rw [splitAt_append (by decide), splitAt_of_not_mem fun hc => (x.mem_toText hc).2 rfl]
  have hffff : group? "ffff".toList = some 0xFFFF := by decide
  have hgroups : groups? ["ffff".toList, x.toText] = some [0xFFFF, g, h] := by
    rw [groups?, hffff, groups?, x.ofText?_toText, ← hx]
    · simp only [V4.ofGroups, bytes_group]
      rfl
    · exact List.cons_ne_nil _ _
  have hcut : cutDouble ("::ffff:".toList ++ x.toText) =
      some ([], "ffff".toList ++ ':' :: x.toText) := rfl
  have hempty : ("ffff".toList ++ ':' :: x.toText).isEmpty = false := rfl
  rw [ofText?, hcut]
  simp only [front?, side?, hempty, hsplit, hgroups]
  rfl

/-- The three ways in which an address is written. -/
theorem toText_cases (x : V6) :
    (∃ g h, x.groups = [0, 0, 0, 0, 0, 0xFFFF, g, h] ∧
      x.toText = "::ffff:".toList ++ (V4.ofGroups g h).toText) ∨
    x.toText = groupsText x.groups ∨
    ∃ front n back, 0 < n ∧ x.groups = front ++ List.replicate n 0 ++ back ∧
      x.toText = groupsText front ++ ':' :: ':' :: groupsText back := by
  obtain ⟨gs, h8⟩ := x
  simp only [toText]
  split
  · exact .inl ⟨_, _, rfl, rfl⟩
  · right
    split
    · rename_i hrun
      obtain ⟨front, back, hgs, hstart⟩ := exists_longestRun gs 0
      generalize longestRun 0 gs = run at hrun hgs hstart
      subst hgs
      refine .inr ⟨front, run.length, back, by omega, rfl, ?_⟩
      have hfront : run.start = front.length := by omega
      have hback : run.start + run.length = (front ++ List.replicate run.length 0).length := by
        rw [List.length_append, List.length_replicate, hfront]
      rw [hback, List.drop_left, hfront, List.append_assoc, List.take_left]
    · exact .inl rfl

theorem ofText?_toText (x : V6) : ofText? x.toText = some x := by
  obtain ⟨gs, h8⟩ := x
  rcases toText_cases ⟨gs, h8⟩ with ⟨g, h, rfl, htext⟩ | htext | ⟨front, n, back, hn, rfl, htext⟩
  · rw [htext, ofText?_mapped]
  · rw [htext, ofText?_groupsText]
  · rw [htext, ofText?_double hn]

theorem not_isBlank_of_mem_toText (x : V6) : ∀ c ∈ x.toText, isBlank c = false := by
  have hcolon : isBlank ':' = false := by decide
  intro c hc
  rcases toText_cases x with ⟨g, h, -, htext⟩ | htext | ⟨front, n, back, -, -, htext⟩
  · rw [htext, List.mem_append] at hc
    rcases hc with hc | hc
    · exact not_isBlank_of_all (by decide) c hc
    · exact (V4.mem_toText _ hc).1
  · rw [htext] at hc
    exact (mem_groupsText hc).1
  · rw [htext, List.mem_append, List.mem_cons, List.mem_cons] at hc
    rcases hc with hc | rfl | rfl | hc
    · exact (mem_groupsText hc).1
    · exact hcolon
    · exact hcolon
    · exact (mem_groupsText hc).1

/-- Without a colon there are no more groups than an IPv4 address makes. -/
theorem ofText?_of_colon_not_mem {cs : List Char} (h : ':' ∉ cs) : ofText? cs = none := by
  have hcut : cutDouble cs = none := by
    have hcut := cutDouble_append h []
    rwa [List.append_nil] at hcut
  have hfew : ∀ gs ∈ side? cs, gs.length ≠ 8 := by
    intro gs hgs
    rw [Option.mem_def, side?, splitAt_of_not_mem h] at hgs
    split at hgs
    · cases hgs
      decide
    simp only [groups?] at hgs
    split at hgs
    · cases hgs
      exact Nat.ne_of_lt (show 2 < 8 by decide)
    · obtain ⟨g, -, rfl⟩ := Option.map_eq_some_iff.mp hgs
      exact Nat.ne_of_lt (show 1 < 8 by decide)
  rw [ofText?, hcut]
  cases hside : side? cs with
  | none => rfl
  | some gs => exact dif_neg (hfew gs hside)

/-- An IPv6 address is never read as an IPv4 address. -/
theorem v4_ofText?_toText (x : V6) : V4.ofText? x.toText = none := by
  rcases toText_cases x with ⟨g, h, -, htext⟩ | htext | ⟨front, n, back, -, -, htext⟩
  · -- Everything up to the first dot would be an octet.
    have hdot : ∀ n, '.' ∉ "::ffff:".toList ++ Nat.toDigits 10 n := fun n hmem => by
      rcases List.mem_append.mp hmem with hmem | hmem
      · exact absurd hmem (by decide)
      · exact dot_not_mem_toDigits (by decide) (by decide) hmem
    have hoctet : ∀ n, octet? ("::ffff:".toList ++ Nat.toDigits 10 n) = none := fun n => by
      have hlong : ¬("::ffff:".toList ++ Nat.toDigits 10 n).length ≤ 3 := by
        rw [List.length_append]
        have hseven : "::ffff:".toList.length = 7 := rfl
        omega
      unfold octet?
      split
      · rfl
      · rw [if_neg hlong]
    rw [htext, V4.toText, ← List.append_assoc, V4.ofText?, V4.splitAt_dot (hdot _)]
    simp only [hoctet]
    rfl
  · rw [htext]
    exact V4.ofText?_of_dot_not_mem fun hmem => (mem_groupsText hmem).2 rfl
  · rw [htext]
    apply V4.ofText?_of_dot_not_mem
    rw [List.mem_append, List.mem_cons, List.mem_cons, not_or, not_or, not_or]
    exact ⟨fun hmem => (mem_groupsText hmem).2 rfl, by decide, by decide,
      fun hmem => (mem_groupsText hmem).2 rfl⟩

end V6

namespace IpAddress

theorem ofText?_toText (x : IpAddress) : ofText? x.toText = some x := by
  cases x with
  | v4 x => simp only [toText, ofText?, String.toList_ofList, V4.ofText?_toText]
  | v6 x =>
    simp only [toText, ofText?, String.toList_ofList, V6.v4_ofText?_toText, V6.ofText?_toText,
      Option.map_some]

/-- Of two runs that are equally long the first is left out. -/
example : (IpAddress.v6 ⟨[0x2001, 0xdb8, 0, 0, 1, 0, 0, 1], rfl⟩).toText = "2001:db8::1:0:0:1" := by
  decide

theorem not_isBlank_of_mem_toText (x : IpAddress) : ∀ c ∈ x.toText.toList, isBlank c = false := by
  cases x with
  | v4 x =>
    rw [toText, String.toList_ofList]
    exact fun c hc => (x.mem_toText hc).1
  | v6 x =>
    rw [toText, String.toList_ofList]
    exact x.not_isBlank_of_mem_toText

/-- A name without a dot or a colon is no address, in whatever case it is written. -/
theorem ofText?_of_name {s name : String} (h : sameIgnoringCase s name = true)
    (hdot : '.' ∉ name.toList) (hcolon : ':' ∉ name.toList) : ofText? s = none := by
  have hsame := (sameIgnoringCase_iff s name).mp h
  have hv4 := V4.ofText?_of_dot_not_mem (hsame.not_mem (by decide) hdot)
  have hv6 := V6.ofText?_of_colon_not_mem (hsame.not_mem (by decide) hcolon)
  simp only [ofText?, hv4, hv6, Option.map_none]

end IpAddress

end Letterbox
