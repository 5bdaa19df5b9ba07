import FractalGateway.Lib.Digits
import FractalGateway.Net

/-! What the texts of addresses are made of, and that they tell addresses apart.

    An IPv6 text is read back from its pieces between colons. An empty piece marks the run of zero
    groups that was left out: the groups before it and after it are there, and eight groups less
    those is the length of the run. -/

namespace FractalGateway
open Std Text

/-! ### Alphabets -/

/-- The characters of addresses, networks and sockets. -/
def addressChars : List Char := hexDigits ++ ":./[]%".toList

theorem Ipv4Addr.text_over (a : BitVec 32) : Over (decDigits ++ ['.']) (Ipv4Addr.text a) := by
  have hnat : ∀ n : ℕ, Over (decDigits ++ ['.']) (toString n) := fun n =>
    (over_nat n).mono (List.subset_append_left _ _)
  have hdot : Over (decDigits ++ ['.']) "." := by decide
  exact (((((((hnat _).append hdot).append (hnat _)).append hdot).append (hnat _)).append hdot).append
    (hnat _))

theorem Ipv6Addr.hexGroups_over (segments : List ℕ) :
    Over (hexDigits ++ [':']) (Ipv6Addr.hexGroups segments) := by
  refine Over.intercalate (by decide) fun t ht => ?_
  obtain ⟨s, _, rfl⟩ := List.mem_map.mp ht
  intro c hc
  rw [String.toList_ofList] at hc
  exact List.mem_append_left _
    (toDigits_subset (by decide) (fun d => digitChar_mem_hexDigits) s c hc)

theorem Ipv6Addr.text_over (a : BitVec 128) : Over (hexDigits ++ [':', '.']) (Ipv6Addr.text a) := by
  have hgroups : ∀ segments, Over (hexDigits ++ [':', '.']) (Ipv6Addr.hexGroups segments) :=
    fun segments => (Ipv6Addr.hexGroups_over segments).mono (by decide)
  unfold Ipv6Addr.text
  split
  · exact Over.append (by decide) ((Ipv4Addr.text_over _).mono (by decide))
  · dsimp only
    split
    · exact ((hgroups _).append (by decide)).append (hgroups _)
    · exact hgroups _

theorem IpAddr.text_over : ∀ a : IpAddr, Over (hexDigits ++ [':', '.']) a.text
  | .v4 a => (Ipv4Addr.text_over a).mono (by decide)
  | .v6 a => Ipv6Addr.text_over a

theorem IpNet.text_over (net : IpNet) : Over (hexDigits ++ [':', '.', '/']) net.text :=
  (((IpAddr.text_over net.addr).mono (by decide)).append (by decide)).append
    ((over_nat net.prefix_len).mono (by decide))

theorem SocketAddr.text_over (socket : SocketAddr) : Over addressChars socket.text := by
  have hnat : ∀ n : ℕ, Over addressChars (toString n) := fun n => (over_nat n).mono (by decide)
  cases socket with
  | v4 ip port =>
    exact (((Ipv4Addr.text_over ip).mono (by decide)).append (by decide)).append (hnat _)
  | v6 ip port flowinfo scope_id =>
    have hip : Over addressChars (Ipv6Addr.text ip) := (Ipv6Addr.text_over ip).mono (by decide)
    unfold SocketAddr.text
    dsimp only
    split
    · exact ((Over.append (by decide) hip).append (by decide)).append (hnat _)
    · exact ((((Over.append (by decide) hip).append (by decide)).append (hnat _)).append
        (by decide)).append (hnat _)

/-! ### IPv4 -/

theorem Ipv4Addr.split_text (a : BitVec 32) : split '.' (Ipv4Addr.text a) =
    [toString (a.toNat / 2 ^ 24), toString (a.toNat / 2 ^ 16 % 256), toString (a.toNat / 2 ^ 8 % 256),
      toString (a.toNat % 256)] := by
  have htext : Ipv4Addr.text a = (String.singleton '.').intercalate
      [toString (a.toNat / 2 ^ 24), toString (a.toNat / 2 ^ 16 % 256),
        toString (a.toNat / 2 ^ 8 % 256), toString (a.toNat % 256)] := by
    simp only [Ipv4Addr.text, String.intercalate_cons_cons, String.intercalate_singleton]
    simp only [String.append_assoc]
    rfl
  rw [htext]
  refine split_intercalate (fun t ht => ?_) (by simp)
  have hnat : ∀ n : ℕ, '.' ∉ (toString n).toList := fun n => (over_nat n).not_mem (by decide)
  simp only [List.mem_cons, List.not_mem_nil, or_false] at ht
  rcases ht with rfl | rfl | rfl | rfl <;> exact hnat _

theorem Ipv4Addr.text_injective : Function.Injective Ipv4Addr.text := by
  intro a b h
  have hparts := congrArg (split '.') h
  rw [Ipv4Addr.split_text, Ipv4Addr.split_text] at hparts
  simp only [List.cons.injEq, and_true] at hparts
  obtain ⟨h₁, h₂, h₃, h₄⟩ := hparts
  have h₁ := toString_nat_injective h₁
  have h₂ := toString_nat_injective h₂
  have h₃ := toString_nat_injective h₃
  have h₄ := toString_nat_injective h₄
  exact BitVec.eq_of_toNat_eq (by omega)

/-! ### IPv6: the run of zero groups -/

/-- One group more in the search for the longest run of zero groups. -/
def Ipv6Addr.zeroesStep (state : (ℕ × ℕ) × ℕ × ℕ) (group : ℕ × ℕ) : (ℕ × ℕ) × ℕ × ℕ :=
  if group.1 = 0 then
    let current := if state.2.2 = 0 then (group.2, 1) else (state.2.1, state.2.2 + 1)
    (if state.1.2 < current.2 then current else state.1, current)
  else (state.1, (0, 0))

theorem Ipv6Addr.zeroes_eq (segments : List ℕ) :
    Ipv6Addr.zeroes segments = (segments.zipIdx.foldl Ipv6Addr.zeroesStep ((0, 0), (0, 0))).1 := rfl

/-- A run, start and length, is one of zero groups. -/
def Ipv6Addr.ZeroRun (segments : List ℕ) (run : ℕ × ℕ) : Prop :=
  ∀ i, run.1 ≤ i → i < run.1 + run.2 → segments[i]? = some 0

theorem Ipv6Addr.ZeroRun.append {segments : List ℕ} {run : ℕ × ℕ} (h : Ipv6Addr.ZeroRun segments run)
    (rest : List ℕ) : Ipv6Addr.ZeroRun (segments ++ rest) run := by
  intro i hi hi'
  have hget := h i hi hi'
  rw [List.getElem?_append_left (List.getElem?_eq_some_iff.mp hget).1]
  exact hget

/-- What the search keeps: two runs of zero groups, the current one up to the end. -/
structure Ipv6Addr.Searched (segments : List ℕ) (state : (ℕ × ℕ) × ℕ × ℕ) : Prop where
  longest : Ipv6Addr.ZeroRun segments state.1
  current : Ipv6Addr.ZeroRun segments state.2
  ends : state.2.2 = 0 ∨ state.2.1 + state.2.2 = segments.length

theorem Ipv6Addr.Searched.step {segments : List ℕ} {state : (ℕ × ℕ) × ℕ × ℕ}
    (h : Ipv6Addr.Searched segments state) (segment : ℕ) :
    Ipv6Addr.Searched (segments ++ [segment])
      (Ipv6Addr.zeroesStep state (segment, segments.length)) := by
  obtain ⟨longest, start, len⟩ := state
  unfold Ipv6Addr.zeroesStep
  dsimp only
  split
  · next hzero =>
    subst hzero
    have hlast : (segments ++ [0])[segments.length]? = some 0 := by simp
    have hcurrent : Ipv6Addr.ZeroRun (segments ++ [0])
        (if len = 0 then (segments.length, 1) else (start, len + 1)) := by
      intro i hi hi'
      split at hi'
      · next hlen =>
        rw [if_pos hlen] at hi
        have heq : i = segments.length := Nat.le_antisymm (Nat.lt_succ_iff.mp hi') hi
        rw [heq]
        exact hlast
      · next hlen =>
        rw [if_neg hlen] at hi
        by_cases hend : i < start + len
        · exact (h.current.append [0]) i hi hend
        · have hends : start + len = segments.length := h.ends.resolve_left hlen
          have heq : i = segments.length := by
            dsimp only at hi'
            omega
          rw [heq]
          exact hlast
    have hends : (if len = 0 then (segments.length, 1) else (start, len + 1)).1 +
        (if len = 0 then (segments.length, 1) else (start, len + 1)).2 = (segments ++ [0]).length := by
      rw [List.length_append, List.length_singleton]
      split
      · rfl
      · next hlen =>
        have hends : start + len = segments.length := h.ends.resolve_left hlen
        dsimp only
        omega
    generalize (if len = 0 then (segments.length, 1) else (start, len + 1)) = current at hcurrent hends ⊢
    refine ⟨?_, hcurrent, Or.inr hends⟩
    dsimp only
    split
    · exact hcurrent
    · exact h.longest.append [0]
  · exact ⟨h.longest.append _, fun i _ hi => absurd hi (Nat.not_lt_zero i), Or.inl rfl⟩

theorem Ipv6Addr.searched_foldl : ∀ (rest segments : List ℕ) (state : (ℕ × ℕ) × ℕ × ℕ),
    Ipv6Addr.Searched segments state →
    Ipv6Addr.Searched (segments ++ rest)
      ((rest.zipIdx segments.length).foldl Ipv6Addr.zeroesStep state)
  | [], segments, state, h => by simpa using h
  | segment :: rest, segments, state, h => by
      rw [List.zipIdx_cons, List.foldl_cons, List.append_cons]
      have hlen : segments.length + 1 = (segments ++ [segment]).length := by simp
      rw [hlen]
      exact Ipv6Addr.searched_foldl rest _ _ (h.step segment)

/-- The groups left out are zero groups. -/
theorem Ipv6Addr.zeroes_run (segments : List ℕ) :
    Ipv6Addr.ZeroRun segments (Ipv6Addr.zeroes segments) := by
  have hstart : Ipv6Addr.Searched [] ((0, 0), (0, 0)) :=
    ⟨fun i _ hi => absurd hi (Nat.not_lt_zero i), fun i _ hi => absurd hi (Nat.not_lt_zero i), Or.inl rfl⟩
  have hrun := (Ipv6Addr.searched_foldl segments [] _ hstart).longest
  rw [List.nil_append] at hrun
  rw [Ipv6Addr.zeroes_eq]
  exact hrun

theorem Ipv6Addr.zeroRun_split {segments : List ℕ} {start len : ℕ}
    (h : Ipv6Addr.ZeroRun segments (start, len)) :
    segments = segments.take start ++ List.replicate len 0 ++ segments.drop (start + len) := by
  have hzeroes : (segments.drop start).take len = List.replicate len 0 := by
    refine List.ext_getElem? fun i => ?_
    rw [List.getElem?_take, List.getElem?_drop, List.getElem?_replicate]
    split
    · next hi => exact h (start + i) (Nat.le_add_right _ _) (Nat.add_lt_add_left hi start)
    · rfl
  rw [← hzeroes, ← List.drop_drop, List.append_assoc, List.take_append_drop, List.take_append_drop]

/-! ### IPv6: the pieces between the colons -/

/-- A group in hexadecimal. -/
def hexText (s : ℕ) : String := String.ofList (Nat.toDigits 16 s)

theorem hexText_injective : Function.Injective hexText := by
  intro s t h
  exact toDigits_injective (by decide) (by decide) (String.ofList_injective h)

theorem hexText_ne_empty (s : ℕ) : hexText s ≠ "" := by
  intro h
  have hnil := congrArg String.toList h
  rw [hexText, String.toList_ofList] at hnil
  exact Nat.toDigits_ne_nil hnil

/-- The pieces of groups joined by colons; no groups are one empty piece. -/
def Ipv6Addr.pieces (segments : List ℕ) : List String := split ':' (Ipv6Addr.hexGroups segments)

theorem Ipv6Addr.pieces_nil : Ipv6Addr.pieces [] = [""] := rfl

theorem Ipv6Addr.pieces_of_ne_nil {segments : List ℕ} (h : segments ≠ []) :
    Ipv6Addr.pieces segments = segments.map hexText := by
  refine split_intercalate (fun t ht => ?_) (by simpa using h)
  obtain ⟨s, _, rfl⟩ := List.mem_map.mp ht
  intro hc
  rw [String.toList_ofList] at hc
  exact absurd (toDigits_subset (by decide) (fun d => digitChar_mem_hexDigits) s _ hc) (by decide)

theorem Ipv6Addr.reverse_pieces (segments : List ℕ) :
    (Ipv6Addr.pieces segments).reverse = Ipv6Addr.pieces segments.reverse := by
  by_cases h : segments = []
  · rw [h]
    rfl
  · rw [Ipv6Addr.pieces_of_ne_nil h, Ipv6Addr.pieces_of_ne_nil (by simpa using h), List.map_reverse]

/-- The groups up to the first empty piece. -/
theorem Ipv6Addr.takeWhile_pieces (segments : List ℕ) (rest : List String) :
    (Ipv6Addr.pieces segments ++ "" :: rest).takeWhile (fun t => decide (t ≠ "")) =
      segments.map hexText := by
  by_cases h : segments = []
  · rw [h, Ipv6Addr.pieces_nil]
    rfl
  · rw [Ipv6Addr.pieces_of_ne_nil h, List.takeWhile_append_of_pos,
      List.takeWhile_cons_of_neg (by simp), List.append_nil]
    intro t ht
    obtain ⟨s, _, rfl⟩ := List.mem_map.mp ht
    exact decide_eq_true (hexText_ne_empty s)

/-- The pieces around a run that was left out determine the groups around it. -/
theorem Ipv6Addr.pieces_inj {l l' r r' : List ℕ}
    (h : Ipv6Addr.pieces l ++ "" :: Ipv6Addr.pieces r = Ipv6Addr.pieces l' ++ "" :: Ipv6Addr.pieces r') :
    l = l' ∧ r = r' := by
  constructor
  · have htake := congrArg (List.takeWhile fun t => decide (t ≠ "")) h
    rw [Ipv6Addr.takeWhile_pieces, Ipv6Addr.takeWhile_pieces] at htake
    exact List.map_injective_iff.mpr hexText_injective htake
  · have hrev := congrArg List.reverse h
    simp only [List.reverse_append, List.reverse_cons, List.append_assoc, List.singleton_append,
      Ipv6Addr.reverse_pieces] at hrev
    have htake := congrArg (List.takeWhile fun t => decide (t ≠ "")) hrev
    rw [Ipv6Addr.takeWhile_pieces, Ipv6Addr.takeWhile_pieces] at htake
    exact List.reverse_injective (List.map_injective_iff.mpr hexText_injective htake)

/-! ### IPv6: texts -/

/-- Groups with the longest run of two or more zero groups left out. -/
def Ipv6Addr.compressed (segments : List ℕ) : String :=
  let (start, len) := Ipv6Addr.zeroes segments
  if 1 < len then
    Ipv6Addr.hexGroups (segments.take start) ++ "::" ++
      Ipv6Addr.hexGroups (segments.drop (start + len))
  else Ipv6Addr.hexGroups segments

theorem Ipv6Addr.text_of_mapped {a : BitVec 128} (h : a.toNat / 2 ^ 32 = 0xffff) :
    Ipv6Addr.text a = "::ffff:" ++ Ipv4Addr.text (a.setWidth 32) := if_pos h

theorem Ipv6Addr.text_of_not_mapped {a : BitVec 128} (h : a.toNat / 2 ^ 32 ≠ 0xffff) :
    Ipv6Addr.text a = Ipv6Addr.compressed (Ipv6Addr.segments a) := if_neg h

theorem Ipv6Addr.compressed_over (segments : List ℕ) :
    Over (hexDigits ++ [':']) (Ipv6Addr.compressed segments) := by
  unfold Ipv6Addr.compressed
  dsimp only
  split
  · exact ((Ipv6Addr.hexGroups_over _).append (by decide)).append (Ipv6Addr.hexGroups_over _)
  · exact Ipv6Addr.hexGroups_over _

theorem Ipv6Addr.split_run (a b : String) :
    split ':' (a ++ "::" ++ b) = split ':' a ++ "" :: split ':' b := by
  have hrest : split ':' (":" ++ b) = split ':' "" ++ split ':' b := split_append (by simp)
  have hall : split ':' (a ++ "::" ++ b) = split ':' a ++ split ':' (":" ++ b) :=
    split_append (by simp)
  rw [hall, hrest]
  rfl

/-- The pieces of a text: those of all groups, or those around a run of zero groups. -/
theorem Ipv6Addr.split_compressed {segments : List ℕ} (hne : segments ≠ []) :
    split ':' (Ipv6Addr.compressed segments) = segments.map hexText ∨
      ∃ l n r, segments = l ++ List.replicate n 0 ++ r ∧
        split ':' (Ipv6Addr.compressed segments) = Ipv6Addr.pieces l ++ "" :: Ipv6Addr.pieces r := by
  unfold Ipv6Addr.compressed
  dsimp only
  split
  · right
    exact ⟨_, _, _, Ipv6Addr.zeroRun_split (Ipv6Addr.zeroes_run segments), Ipv6Addr.split_run _ _⟩
  · left
    exact Ipv6Addr.pieces_of_ne_nil hne

/-- Texts of eight groups tell them apart. -/
theorem Ipv6Addr.compressed_inj {s t : List ℕ} (hs : s.length = 8) (ht : t.length = 8)
    (h : Ipv6Addr.compressed s = Ipv6Addr.compressed t) : s = t := by
  have hs' : s ≠ [] := List.ne_nil_of_length_eq_add_one hs
  have ht' : t ≠ [] := List.ne_nil_of_length_eq_add_one ht
  have hempty : ∀ u : List ℕ, "" ∉ u.map hexText := by
    intro u hu
    obtain ⟨n, _, hn⟩ := List.mem_map.mp hu
    exact hexText_ne_empty n hn
  rcases Ipv6Addr.split_compressed hs' with hsplit | ⟨l, n, r, hsegs, hsplit⟩
  · rcases Ipv6Addr.split_compressed ht' with hsplit' | ⟨l', n', r', hsegs', hsplit'⟩
    · rw [h, hsplit'] at hsplit
      exact (List.map_injective_iff.mpr hexText_injective hsplit).symm
    · rw [h, hsplit'] at hsplit
      exact absurd (hsplit ▸ List.mem_append_right _ List.mem_cons_self) (hempty s)
  · rcases Ipv6Addr.split_compressed ht' with hsplit' | ⟨l', n', r', hsegs', hsplit'⟩
    · rw [← h, hsplit] at hsplit'
      exact absurd (hsplit' ▸ List.mem_append_right _ List.mem_cons_self) (hempty t)
    · rw [h, hsplit'] at hsplit
      obtain ⟨rfl, rfl⟩ := Ipv6Addr.pieces_inj hsplit
      have hn : n = n' := by
        rw [hsegs] at hs
        rw [hsegs'] at ht
        simp only [List.length_append, List.length_replicate] at hs ht
        omega
      rw [hsegs, hsegs', hn]

theorem Ipv6Addr.segments_injective : Function.Injective Ipv6Addr.segments := by
  intro a b h
  refine BitVec.eq_of_toNat_eq (eq_of_digits (b := 2 ^ 16) (k := 8) (by decide) a.isLt b.isLt ?_)
  intro i hi
  have hmem : i ∈ [7, 6, 5, 4, 3, 2, 1, 0] := by
    simp only [List.mem_cons, List.not_mem_nil, or_false]
    omega
  have hgroup := List.map_inj_left.mp h i hmem
  rwa [Nat.pow_mul] at hgroup

theorem Ipv6Addr.text_injective : Function.Injective Ipv6Addr.text := by
  intro a b h
  have hdot : ∀ c : BitVec 32, '.' ∈ ("::ffff:" ++ Ipv4Addr.text c).toList := by
    intro c
    simp [Ipv4Addr.text]
  have hnot : ∀ segments, '.' ∉ (Ipv6Addr.compressed segments).toList := fun segments =>
    (Ipv6Addr.compressed_over segments).not_mem (by decide)
  by_cases ha : a.toNat / 2 ^ 32 = 0xffff
  · by_cases hb : b.toNat / 2 ^ 32 = 0xffff
    · rw [Ipv6Addr.text_of_mapped ha, Ipv6Addr.text_of_mapped hb] at h
      have hlow : a.setWidth 32 = b.setWidth 32 :=
        Ipv4Addr.text_injective (String.append_right_inj _ |>.mp h)
      have hnat := congrArg BitVec.toNat hlow
      rw [BitVec.toNat_setWidth, BitVec.toNat_setWidth] at hnat
      exact BitVec.eq_of_toNat_eq (by omega)
    · rw [Ipv6Addr.text_of_mapped ha, Ipv6Addr.text_of_not_mapped hb] at h
      exact absurd (h ▸ hdot _) (hnot _)
  · by_cases hb : b.toNat / 2 ^ 32 = 0xffff
    · rw [Ipv6Addr.text_of_not_mapped ha, Ipv6Addr.text_of_mapped hb] at h
      exact absurd (h ▸ hdot _) (hnot _)
    · rw [Ipv6Addr.text_of_not_mapped ha, Ipv6Addr.text_of_not_mapped hb] at h
      exact Ipv6Addr.segments_injective (Ipv6Addr.compressed_inj rfl rfl h)

/-- An IPv6 text has a colon. -/
theorem Ipv6Addr.colon_mem_text (a : BitVec 128) : ':' ∈ (Ipv6Addr.text a).toList := by
  by_cases ha : a.toNat / 2 ^ 32 = 0xffff
  · rw [Ipv6Addr.text_of_mapped ha]
    simp
  · rw [Ipv6Addr.text_of_not_mapped ha]
    by_contra hnot
    have hone := split_of_not_mem hnot
    rcases Ipv6Addr.split_compressed (List.cons_ne_nil _ _) with hsplit | ⟨l, n, r, _, hsplit⟩
    · have hlen := congrArg List.length (hone.symm.trans hsplit)
      simp [Ipv6Addr.segments] at hlen
    · have hlen := congrArg List.length (hone.symm.trans hsplit)
      have hl : 0 < (Ipv6Addr.pieces l).length := List.length_pos_of_ne_nil (split_ne_nil _ _)
      simp only [List.length_append, List.length_cons, List.length_nil] at hlen
      omega

/-! ### Addresses, networks and sockets -/

theorem Ipv4Addr.colon_not_mem_text (a : BitVec 32) : ':' ∉ (Ipv4Addr.text a).toList :=
  (Ipv4Addr.text_over a).not_mem (by decide)

theorem IpAddr.text_injective : Function.Injective IpAddr.text := by
  intro a b h
  cases a with
  | v4 a =>
    cases b with
    | v4 b => rw [Ipv4Addr.text_injective h]
    | v6 b =>
      have htext : Ipv4Addr.text a = Ipv6Addr.text b := h
      exact absurd (htext ▸ Ipv6Addr.colon_mem_text b) (Ipv4Addr.colon_not_mem_text a)
  | v6 a =>
    cases b with
    | v4 b =>
      have htext : Ipv6Addr.text a = Ipv4Addr.text b := h
      exact absurd (htext ▸ Ipv6Addr.colon_mem_text a) (Ipv4Addr.colon_not_mem_text b)
    | v6 b => rw [Ipv6Addr.text_injective h]

theorem IpNet.text_injective : Function.Injective IpNet.text := by
  rintro ⟨a, m⟩ ⟨b, n⟩ h
  have hslash : ∀ c : IpAddr, '/' ∉ c.text.toList := fun c => (IpAddr.text_over c).not_mem (by decide)
  obtain ⟨haddr, hlen⟩ := cut_first rfl (hslash a) (hslash b) h
  have hm : m = n := toString_nat_injective hlen
  rw [IpAddr.text_injective haddr, hm]

/-- A socket address as texts give it: without a flow label. -/
def SocketAddr.FromText : SocketAddr → Prop
  | .v4 _ _ => True
  | .v6 _ _ flowinfo _ => flowinfo = 0

/-- What stands between the brackets of an IPv6 socket. -/
def SocketAddr.scoped (ip : BitVec 128) (scope_id : UInt32) : String :=
  if scope_id = 0 then Ipv6Addr.text ip else Ipv6Addr.text ip ++ "%" ++ toString scope_id.toNat

theorem SocketAddr.text_v6 (ip : BitVec 128) (port : UInt16) (flowinfo scope_id : UInt32) :
    (SocketAddr.v6 ip port flowinfo scope_id).text.toList =
      '[' :: ((SocketAddr.scoped ip scope_id).toList ++ ']' :: ':' :: (toString port.toNat).toList) := by
  unfold SocketAddr.text SocketAddr.scoped
  dsimp only
  split <;> simp

theorem SocketAddr.scoped_over (ip : BitVec 128) (scope_id : UInt32) :
    Over (hexDigits ++ [':', '.', '%']) (SocketAddr.scoped ip scope_id) := by
  have hip : Over (hexDigits ++ [':', '.', '%']) (Ipv6Addr.text ip) :=
    (Ipv6Addr.text_over ip).mono (by decide)
  unfold SocketAddr.scoped
  split
  · exact hip
  · exact (hip.append (by decide)).append ((over_nat _).mono (by decide))

theorem SocketAddr.scoped_inj {ip ip' : BitVec 128} {scope_id scope_id' : UInt32}
    (h : SocketAddr.scoped ip scope_id = SocketAddr.scoped ip' scope_id') :
    ip = ip' ∧ scope_id = scope_id' := by
  have hpercent : ∀ ip : BitVec 128, '%' ∉ (Ipv6Addr.text ip).toList := fun ip =>
    (Ipv6Addr.text_over ip).not_mem (by decide)
  unfold SocketAddr.scoped at h
  split at h
  · next hs =>
    split at h
    · next hs' => exact ⟨Ipv6Addr.text_injective h, hs.trans hs'.symm⟩
    · have hnot := hpercent ip
      rw [h] at hnot
      simp at hnot
  · split at h
    · have hnot := hpercent ip'
      rw [← h] at hnot
      simp at hnot
    · obtain ⟨hip, hscope⟩ := cut_first rfl (hpercent ip) (hpercent ip') h
      exact ⟨Ipv6Addr.text_injective hip, UInt32.toNat_inj.mp (toString_nat_injective hscope)⟩

theorem SocketAddr.bracket_not_mem_v4 (ip : BitVec 32) (port : UInt16) :
    '[' ∉ (SocketAddr.v4 ip port).text.toList := by
  have hover : Over (decDigits ++ ['.', ':']) (SocketAddr.v4 ip port).text :=
    (((Ipv4Addr.text_over ip).mono (by decide)).append (by decide)).append
      ((over_nat _).mono (by decide))
  exact hover.not_mem (by decide)

/-- The texts of sockets tell them apart, flow labels aside. -/
theorem SocketAddr.text_inj {s t : SocketAddr} (hs : s.FromText) (ht : t.FromText)
    (h : s.text = t.text) : s = t := by
  have hport : ∀ {p q : UInt16}, toString p.toNat = toString q.toNat → p = q :=
    fun heq => UInt16.toNat_inj.mp (toString_nat_injective heq)
  cases s with
  | v4 ip port =>
    cases t with
    | v4 ip' port' =>
      obtain ⟨hip, hp⟩ := cut_first rfl (Ipv4Addr.colon_not_mem_text ip)
        (Ipv4Addr.colon_not_mem_text ip') h
      rw [Ipv4Addr.text_injective hip, hport hp]
    | v6 ip' port' flowinfo' scope_id' =>
      refine absurd ?_ (SocketAddr.bracket_not_mem_v4 ip port)
      rw [h, SocketAddr.text_v6]
      exact List.mem_cons_self
  | v6 ip port flowinfo scope_id =>
    cases t with
    | v4 ip' port' =>
      refine absurd ?_ (SocketAddr.bracket_not_mem_v4 ip' port')
      rw [← h, SocketAddr.text_v6]
      exact List.mem_cons_self
    | v6 ip' port' flowinfo' scope_id' =>
      have hlists := congrArg String.toList h
      rw [SocketAddr.text_v6, SocketAddr.text_v6] at hlists
      have hclose : ∀ (ip : BitVec 128) (scope_id : UInt32),
          ']' ∉ (SocketAddr.scoped ip scope_id).toList := fun ip scope_id =>
        (SocketAddr.scoped_over ip scope_id).not_mem (by decide)
      obtain ⟨hscoped, hp⟩ := first_unique (hclose ip scope_id) (hclose ip' scope_id')
        (List.tail_eq_of_cons_eq hlists)
      obtain ⟨hip, hscope⟩ := SocketAddr.scoped_inj (String.toList_inj.mp hscoped)
      rw [hip, hscope, hport (String.toList_inj.mp (List.tail_eq_of_cons_eq hp)),
        show flowinfo = 0 from hs,
        show flowinfo' = 0 from ht]

end FractalGateway
