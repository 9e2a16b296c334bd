import Crisp.Lib.Zigzag
import Crisp.Ref.ContextParallel
import Mathlib.Algebra.BigOperators.Field

/-!
# The cut of a response and the way back

A rank's two chunks of the whole sequence meet the response where its cuts are: the
window that starts one position before the response, since a token is predicted from
the one before it. The offsets of the source are these cuts, with `(0, 0)` in place of
an empty intersection, and everything else is a fact about zigzag shares: the slices
are the shares, and both ways back put every share at its place.
-/

namespace Crisp.Proofs

open Crisp.Lib Crisp.Ref

section Cuts

variable {layout : QkvLayout} {totalLength responseLength cpRank cpSize : Nat}

/-- Where the chunks of the sequence cut the response. -/
def responseCut (layout : QkvLayout) (totalLength responseLength cpSize : Nat) : Nat → Nat :=
  windowCut (chunkSize layout totalLength cpSize) (totalLength - responseLength - 1)
    (totalLength - 1)

/-- The response has a token before it, and the chunks reach to its end. -/
structure CoversResponse (layout : QkvLayout) (totalLength responseLength : Nat) : Prop where
  prompt : responseLength < totalLength
  padded : totalLength ≤ layout.length totalLength

theorem responseCut_mono : Monotone (responseCut layout totalLength responseLength cpSize) :=
  windowCut_mono

theorem responseCut_zero : responseCut layout totalLength responseLength cpSize 0 = 0 :=
  windowCut_zero

theorem responseCut_last (hfits : CoversResponse layout totalLength responseLength)
    (hsize : 0 < cpSize) :
    responseCut layout totalLength responseLength cpSize (2 * cpSize) = responseLength := by
  have hcover : layout.length totalLength ≤
      chunkSize layout totalLength cpSize * (2 * cpSize) :=
    le_ceil_mul (by omega)
  have hpad := hfits.padded
  have hprompt := hfits.prompt
  unfold responseCut
  rw [windowCut_last (by rw [Nat.mul_comm]; omega)]
  omega

theorem responseCut_le (hfits : CoversResponse layout totalLength responseLength) (j : Nat) :
    responseCut layout totalLength responseLength cpSize j ≤ responseLength := by
  have hprompt := hfits.prompt
  have hle := @windowCut_le (chunkSize layout totalLength cpSize)
    (totalLength - responseLength - 1) (totalLength - 1) j
  unfold responseCut
  omega

/-- The chunk of a number. -/
def chunkOf (layout : QkvLayout) (totalLength cpSize j : Nat) : Int × Int :=
  ((j * chunkSize layout totalLength cpSize : Nat),
    ((j + 1) * chunkSize layout totalLength cpSize : Nat))

theorem cpChunks_eq (hrank : cpRank < cpSize) :
    cpChunks layout totalLength cpRank cpSize =
      ⟨chunkOf layout totalLength cpSize cpRank,
        chunkOf layout totalLength cpSize (mirror cpSize cpRank)⟩ := by
  have hback : ((mirror cpSize cpRank : Nat) : Int) = 2 * cpSize - cpRank - 1 := by
    unfold mirror
    omega
  simp only [cpChunks, chunkOf, TwoOffsets.mk.injEq, Prod.mk.injEq]
  push_cast
  rw [hback, sub_add_cancel]
  exact ⟨⟨rfl, rfl⟩, rfl, rfl⟩

/-- The offsets of a chunk are the cuts on its two sides, counted from the start of the
sequence, or an empty slice where there is nothing between them. -/
theorem logitsOffset_chunkOf (hfits : CoversResponse layout totalLength responseLength) (j : Nat) :
    let cut := responseCut layout totalLength responseLength cpSize
    let start : Int := totalLength - responseLength - 1
    let chunk := chunkOf layout totalLength cpSize j
    (logitsOffset chunk (totalLength - responseLength) totalLength =
          (cut j + start, cut (j + 1) + start) ∧
        tokensOffset chunk (totalLength - responseLength) totalLength =
          (cut j + start + 1, cut (j + 1) + start + 1) ∧ cut j < cut (j + 1) ∧
        chunk.1 ≤ cut j + start ∧ cut (j + 1) + start ≤ chunk.2) ∨
      logitsOffset chunk (totalLength - responseLength) totalLength = (0, 0) ∧
        tokensOffset chunk (totalLength - responseLength) totalLength = (0, 0) ∧
        cut (j + 1) = cut j := by
  intro cut start chunk
  have hprompt := hfits.prompt
  by_cases hmeet : max (j * chunkSize layout totalLength cpSize)
      (totalLength - responseLength - 1) <
    min ((j + 1) * chunkSize layout totalLength cpSize) (totalLength - 1)
  · left
    obtain ⟨hlo, hhi⟩ := windowCut_inside hmeet
    change cut j + _ = _ at hlo
    change cut (j + 1) + _ = _ at hhi
    have hlt : max chunk.1 ((totalLength : Int) - responseLength - 1) <
        min chunk.2 ((totalLength : Int) - 1) := by
      simp only [chunk, chunkOf]
      omega
    refine ⟨?_, ?_, ?_, ?_, ?_⟩
    · simp only [logitsOffset, if_pos hlt, Prod.mk.injEq]
      simp only [chunk, chunkOf, start]
      omega
    · simp only [tokensOffset, if_pos hlt, Prod.mk.injEq]
      simp only [chunk, chunkOf, start]
      omega
    · omega
    · simp only [chunk, chunkOf, start]
      omega
    · simp only [chunk, chunkOf, start]
      omega
  · right
    have hlt : ¬ max chunk.1 ((totalLength : Int) - responseLength - 1) <
        min chunk.2 ((totalLength : Int) - 1) := by
      simp only [chunk, chunkOf]
      omega
    exact ⟨if_neg hlt, if_neg hlt, windowCut_outside hmeet⟩

theorem cutPiece_empty {α : Type} {cut : Nat → Nat} {xs : List α} {j : Nat}
    (h : cut (j + 1) = cut j) : cutPiece cut xs j = [] := by
  rw [cutPiece, h, List.drop_eq_nil_iff, List.length_take]
  omega

theorem pySlice_self {α : Type} (xs : List α) (i : Int) : pySlice xs i i = [] := by
  rw [pySlice, List.drop_eq_nil_iff, List.length_take]
  omega

variable {K : Type}

theorem pySlice_logitsOffset (hfits : CoversResponse layout totalLength responseLength)
    {xs : List K} (hlen : xs.length = responseLength) (j : Nat) :
    pySlice xs
        ((logitsOffset (chunkOf layout totalLength cpSize j) (totalLength - responseLength)
          totalLength).1 - (totalLength - responseLength - 1))
        ((logitsOffset (chunkOf layout totalLength cpSize j) (totalLength - responseLength)
          totalLength).2 - (totalLength - responseLength - 1)) =
      cutPiece (responseCut layout totalLength responseLength cpSize) xs j := by
  have hle := @responseCut_le _ _ _ cpSize hfits (j + 1)
  rcases @logitsOffset_chunkOf _ _ _ cpSize hfits j with
    ⟨hoffset, _, hlt, _, _⟩ | ⟨hoffset, _, hempty⟩
  · rw [hoffset]
    exact pySlice_of_le (by omega) (by omega) (by omega) (by omega)
  · rw [hoffset, pySlice_self, cutPiece_empty hempty]

theorem pySlice_tokensOffset (hfits : CoversResponse layout totalLength responseLength)
    {xs : List K} (hlen : xs.length = responseLength) (j : Nat) :
    pySlice xs
        ((tokensOffset (chunkOf layout totalLength cpSize j) (totalLength - responseLength)
          totalLength).1 - (totalLength - responseLength))
        ((tokensOffset (chunkOf layout totalLength cpSize j) (totalLength - responseLength)
          totalLength).2 - (totalLength - responseLength)) =
      cutPiece (responseCut layout totalLength responseLength cpSize) xs j := by
  have hle := @responseCut_le _ _ _ cpSize hfits (j + 1)
  rcases @logitsOffset_chunkOf _ _ _ cpSize hfits j with
    ⟨_, hoffset, hlt, _, _⟩ | ⟨_, hoffset, hempty⟩
  · rw [hoffset]
    exact pySlice_of_le (by omega) (by omega) (by omega) (by omega)
  · rw [hoffset, pySlice_self, cutPiece_empty hempty]

/-- What a rank keeps of a response is its share. -/
def responseShare (layout : QkvLayout) (totalLength responseLength cpRank cpSize : Nat)
    (xs : List K) : List K :=
  zigzag (responseCut layout totalLength responseLength cpSize) cpSize cpRank xs

theorem sliceLogProbWithCp_eq (hfits : CoversResponse layout totalLength responseLength)
    (hrank : cpRank < cpSize) (hsize : cpSize ≠ 1) {logProb : List K}
    (hlen : logProb.length = responseLength) :
    sliceLogProbWithCp layout totalLength responseLength cpRank cpSize logProb =
      .ok (responseShare layout totalLength responseLength cpRank cpSize logProb) := by
  unfold sliceLogProbWithCp
  rw [check_of hlen, except_ok_bind, if_neg hsize]
  simp only [cpLogitsOffset, cpChunks_eq hrank]
  rw [pySlice_logitsOffset hfits hlen, pySlice_logitsOffset hfits hlen]
  rfl

theorem sliceLossMaskForLocalCp_eq (hfits : CoversResponse layout totalLength responseLength)
    (hrank : cpRank < cpSize) {lossMask : List K} (hlen : lossMask.length = responseLength) :
    sliceLossMaskForLocalCp layout totalLength responseLength cpRank cpSize lossMask =
      responseShare layout totalLength responseLength cpRank cpSize lossMask := by
  simp only [sliceLossMaskForLocalCp, cpTokensOffset, cpChunks_eq hrank]
  rw [pySlice_tokensOffset hfits hlen, pySlice_tokensOffset hfits hlen]
  rfl

/-! ## The way back -/

theorem share_pieces (hfits : CoversResponse layout totalLength responseLength)
    (hrank : cpRank < cpSize) :
    responseCut layout totalLength responseLength cpSize cpRank ≤
        responseCut layout totalLength responseLength cpSize (cpRank + 1) ∧
      responseCut layout totalLength responseLength cpSize (cpRank + 1) ≤
        responseCut layout totalLength responseLength cpSize (mirror cpSize cpRank) ∧
      responseCut layout totalLength responseLength cpSize (mirror cpSize cpRank) ≤
        responseCut layout totalLength responseLength cpSize (mirror cpSize cpRank + 1) ∧
      responseCut layout totalLength responseLength cpSize (mirror cpSize cpRank + 1) ≤
        responseLength :=
  ⟨responseCut_mono (Nat.le_succ _), responseCut_mono (by unfold mirror; omega),
    responseCut_mono (Nat.le_succ _), responseCut_le hfits _⟩

theorem logitsOffset_width (hfits : CoversResponse layout totalLength responseLength) (j : Nat) :
    (logitsOffset (chunkOf layout totalLength cpSize j) (totalLength - responseLength)
        totalLength).2 -
      (logitsOffset (chunkOf layout totalLength cpSize j) (totalLength - responseLength)
        totalLength).1 =
      responseCut layout totalLength responseLength cpSize (j + 1) -
        responseCut layout totalLength responseLength cpSize j := by
  rcases @logitsOffset_chunkOf _ _ _ cpSize hfits j with
    ⟨hoffset, _, hlt, _, _⟩ | ⟨hoffset, _, hempty⟩
  · rw [hoffset]
    omega
  · rw [hoffset, hempty]
    omega

theorem logitsOffset_of_lt (hfits : CoversResponse layout totalLength responseLength) (j : Nat)
    (hlt : responseCut layout totalLength responseLength cpSize j <
      responseCut layout totalLength responseLength cpSize (j + 1)) :
    logitsOffset (chunkOf layout totalLength cpSize j) (totalLength - responseLength)
        totalLength =
      ((responseCut layout totalLength responseLength cpSize j : Int) +
          (totalLength - responseLength - 1),
        (responseCut layout totalLength responseLength cpSize (j + 1) : Int) +
          (totalLength - responseLength - 1)) := by
  rcases @logitsOffset_chunkOf _ _ _ cpSize hfits j with ⟨hoffset, -⟩ | ⟨-, -, hempty⟩
  · exact hoffset
  · exact absurd hempty (by omega)

variable [Zero K]

theorem zeros_eq {len : Int} {n : Nat} (h : len = n) :
    zeros len = .ok (List.replicate n (0 : K)) := by
  rw [zeros, if_neg (by omega), h, Int.toNat_natCast]

/-- What a rank puts into the sum is its share at its place. -/
theorem fullTensor_eq (hfits : CoversResponse layout totalLength responseLength)
    (hrank : cpRank < cpSize) {xs : List K} (hlen : xs.length = responseLength) :
    fullTensor layout totalLength responseLength cpRank cpSize
        (responseShare layout totalLength responseLength cpRank cpSize xs) =
      .ok (kept (owns (responseCut layout totalLength responseLength cpSize) cpSize cpRank)
        xs) := by
  obtain ⟨hab, hbc, hcd, hd⟩ := share_pieces hfits hrank
  have hprompt := hfits.prompt
  have hkept := @kept_between_between K _ xs _ _ _ _ hab hbc hcd (hlen ▸ hd)
  have hwidth₀ := @logitsOffset_width layout totalLength responseLength cpSize hfits cpRank
  have hwidth₁ := @logitsOffset_width layout totalLength responseLength cpSize hfits
    (mirror cpSize cpRank)
  have hoffset₀ := @logitsOffset_of_lt layout totalLength responseLength cpSize hfits cpRank
  have hoffset₁ := @logitsOffset_of_lt layout totalLength responseLength cpSize hfits
    (mirror cpSize cpRank)
  have hlen₀ := @cutPiece_length K (responseCut layout totalLength responseLength cpSize) xs cpRank
    (by omega)
  have hlen₁ := @cutPiece_length K (responseCut layout totalLength responseLength cpSize) xs
    (mirror cpSize cpRank) (by omega)
  unfold fullTensor responseShare zigzag
  simp only [cpLogitsOffset, cpChunks_eq hrank]
  change _ = Except.ok (kept (fun t => between _ _ t || between _ _ t) xs)
  rw [hkept]
  change _ = Except.ok (_ ++ cutPiece (responseCut layout totalLength responseLength cpSize) xs
    cpRank ++ _ ++ cutPiece (responseCut layout totalLength responseLength cpSize) xs
      (mirror cpSize cpRank) ++ _)
  generalize logitsOffset (chunkOf layout totalLength cpSize cpRank) _ _ = front at *
  generalize logitsOffset (chunkOf layout totalLength cpSize (mirror cpSize cpRank)) _ _ = back
    at *
  generalize cutPiece (responseCut layout totalLength responseLength cpSize) xs cpRank = P at *
  generalize cutPiece (responseCut layout totalLength responseLength cpSize) xs
    (mirror cpSize cpRank) = Q at *
  generalize responseCut layout totalLength responseLength cpSize cpRank = a at *
  generalize responseCut layout totalLength responseLength cpSize (cpRank + 1) = b at *
  generalize responseCut layout totalLength responseLength cpSize (mirror cpSize cpRank) = c at *
  generalize responseCut layout totalLength responseLength cpSize (mirror cpSize cpRank + 1) = d
    at *
  have hfront : pyUntil (P ++ Q) (front.2 - front.1) = P := by
    rw [pyUntil, pyBound_of_le (k := P.length) (by omega) (by simp), List.take_left]
  have hback : pyFrom (P ++ Q) (front.2 - front.1) = Q := by
    rw [pyFrom_of_le (a := P.length) (by omega) (by simp), List.drop_left]
  rw [hfront, hback, check_of (by omega), except_ok_bind]
  -- The four branches of the source: which of the two pieces are empty.
  have hfull : ∀ full : List K, full = List.replicate a 0 ++ P ++ List.replicate (c - b) 0 ++ Q ++
      List.replicate (xs.length - d) 0 →
      (do check (full.length = responseLength)
            (assertionError s!"Expected {responseLength}, got torch.Size([{full.length}])")
          Except.ok full) = Except.ok (List.replicate a 0 ++ P ++ List.replicate (c - b) 0 ++ Q ++
        List.replicate (xs.length - d) 0) := by
    intro full hfull
    have hlength : full.length = responseLength := by
      rw [hfull]
      simp only [List.length_append, List.length_replicate]
      omega
    rw [check_of hlength, except_ok_bind, hfull]
  by_cases hP : P = []
  · have hba : b = a := by
      rw [hP] at hlen₀
      simp only [List.length_nil] at hlen₀
      omega
    by_cases hQ : Q = []
    · have hdc : d = c := by
        rw [hQ] at hlen₁
        simp only [List.length_nil] at hlen₁
        omega
      rw [if_pos ⟨hP, hQ⟩, zeros_eq rfl, except_ok_bind]
      refine hfull _ ?_
      rw [hP, hQ, List.append_nil, List.append_nil, ← List.replicate_add, ← List.replicate_add]
      congr 1
      omega
    · have hpos := List.length_pos_iff.mpr hQ
      rw [if_neg (fun h => hQ h.2), if_neg hQ, if_pos hP, hoffset₁ (by omega),
        zeros_eq (n := c) (by simp only; omega), except_ok_bind,
        zeros_eq (n := xs.length - d) (by simp only; omega), except_ok_bind, except_ok_bind]
      refine hfull _ ?_
      rw [hP, List.append_nil, ← List.replicate_add, show a + (c - b) = c by omega]
  · have hpos := List.length_pos_iff.mpr hP
    by_cases hQ : Q = []
    · have hdc : d = c := by
        rw [hQ] at hlen₁
        simp only [List.length_nil] at hlen₁
        omega
      rw [if_neg (fun h => hP h.1), if_pos hQ, hoffset₀ (by omega),
        zeros_eq (n := a) (by simp only; omega), except_ok_bind,
        zeros_eq (n := xs.length - b) (by simp only; omega), except_ok_bind, except_ok_bind]
      refine hfull _ ?_
      rw [hQ, List.append_nil, List.append_assoc _ (List.replicate (c - b) 0),
        ← List.replicate_add, show c - b + (xs.length - d) = xs.length - b by omega]
    · have hpos' := List.length_pos_iff.mpr hQ
      rw [if_neg (fun h => hP h.1), if_neg hQ, if_neg hP, hoffset₀ (by omega),
        hoffset₁ (by omega),
        zeros_eq (n := a) (by simp only; omega), except_ok_bind,
        zeros_eq (n := c - b) (by simp only; omega), except_ok_bind,
        zeros_eq (n := xs.length - d) (by simp only; omega), except_ok_bind, except_ok_bind]
      exact hfull _ rfl

end Cuts

section Group

variable {layout : QkvLayout} {totalLength responseLength cpSize : Nat} {K : Type}
  [DivisionRing K] {xs : List K}

theorem allReduceSum_kept {cut : Nat → Nat} {n : Nat} (hcut : Monotone cut) (hzero : cut 0 = 0)
    (hn : 0 < n) (hlast : xs.length ≤ cut (2 * n)) :
    allReduceSum ((List.range n).map fun r => kept (owns cut n r) xs) = xs := by
  obtain ⟨m, rfl⟩ := Nat.exists_eq_succ_of_ne_zero (Nat.ne_of_gt hn)
  have hsum := foldl_zipWith_mapIdx
    (fun r t (x : K) => if owns cut (m + 1) (r + 1) t then x else 0) xs (List.range m)
    fun t x => if owns cut (m + 1) 0 t then x else 0
  rw [List.range_succ_eq_map, List.map_cons, List.map_map]
  refine Eq.trans hsum ?_
  apply List.ext_getElem (by simp)
  intro t _ ht
  have hone := sum_owns hcut hzero (Nat.lt_of_lt_of_le ht hlast) xs[t]
  rw [Finset.sum_range_succ', add_comm] at hone
  rw [List.getElem_mapIdx]
  exact hone

/-- Gathered, the shares of the ranks are the response. -/
theorem allGatherWithCp_shares (hfits : CoversResponse layout totalLength responseLength)
    (hsize : 1 < cpSize) (hlen : xs.length = responseLength) :
    allGatherWithCp layout totalLength responseLength cpSize
        ((List.range cpSize).map fun cpRank =>
          responseShare layout totalLength responseLength cpRank cpSize xs) = .ok xs := by
  have hindexed : ((List.range cpSize).map fun cpRank =>
        responseShare layout totalLength responseLength cpRank cpSize xs).zipIdx =
      (List.range cpSize).map fun cpRank =>
        (responseShare layout totalLength responseLength cpRank cpSize xs, cpRank) := by
    apply List.ext_getElem (by simp)
    intro i _ _
    simp
  have hlast := @responseCut_last layout totalLength responseLength cpSize hfits (by omega)
  have hfulls : ((List.range cpSize).map fun cpRank =>
        (responseShare layout totalLength responseLength cpRank cpSize xs, cpRank)).mapM
          (fun item => fullTensor layout totalLength responseLength item.2 cpSize item.1) =
      .ok ((List.range cpSize).map fun cpRank =>
        kept (owns (responseCut layout totalLength responseLength cpSize) cpSize cpRank) xs) := by
    rw [List.mapM_map]
    exact except_mapM_eq_ok fun cpRank hcpRank =>
      fullTensor_eq hfits (List.mem_range.mp hcpRank) hlen
  unfold allGatherWithCp
  rw [if_neg (by omega), hindexed, hfulls, except_ok_bind,
    allReduceSum_kept responseCut_mono responseCut_zero (by omega) (by omega)]

theorem assignSlice_eq {out vals : List K} {start stop : Int} {a b : Nat} (ha : start = a)
    (hb : stop = b) (hab : a ≤ b) (hlen : b ≤ out.length) (hvals : vals.length = b - a) :
    assignSlice out start stop vals = .ok (out.take a ++ vals ++ out.drop b) := by
  have hsized : (if vals.length = 1 then List.replicate (b - a) (vals.headD 0) else vals) =
      vals := by
    split
    · next hone =>
        obtain ⟨v, rfl⟩ := List.length_eq_one_iff.mp hone
        rw [← hvals]
        rfl
    · rfl
  unfold assignSlice
  simp only [pyBound_of_le ha (Nat.le_trans hab hlen), pyBound_of_le hb hlen,
    Nat.max_eq_right hab, hsized]
  rw [if_pos hvals]

/-- An interval that is assembled is kept besides, and that much of the chunk is taken. -/
theorem assembleInterval_eq (hfits : CoversResponse layout totalLength responseLength)
    (hlen : xs.length = responseLength) {keep : Nat → Bool} {chunk : List K} {taken j : Nat}
    (hpiece : (chunk.take (taken + (cutPiece (responseCut layout totalLength responseLength cpSize)
      xs j).length)).drop taken =
        cutPiece (responseCut layout totalLength responseLength cpSize) xs j) :
    assembleInterval totalLength responseLength chunk (kept keep xs, taken)
        (logitsOffset (chunkOf layout totalLength cpSize j) (totalLength - responseLength)
          totalLength) =
      .ok (kept (fun t => keep t ||
          between (responseCut layout totalLength responseLength cpSize j)
            (responseCut layout totalLength responseLength cpSize (j + 1)) t) xs,
        taken + (cutPiece (responseCut layout totalLength responseLength cpSize) xs j).length) := by
  have hmono := @responseCut_mono layout totalLength responseLength cpSize j (j + 1)
    (Nat.le_succ j)
  have hle := @responseCut_le layout totalLength responseLength cpSize hfits (j + 1)
  have hwidth := @logitsOffset_width layout totalLength responseLength cpSize hfits j
  have hlength := @cutPiece_length K (responseCut layout totalLength responseLength cpSize) xs j
    (by omega)
  have hoffset := @logitsOffset_of_lt layout totalLength responseLength cpSize hfits j
  have hwrite := @kept_write K _ keep xs _ _ hmono (hlen ▸ hle)
  rw [cutPiece] at hpiece hlength ⊢
  generalize responseCut layout totalLength responseLength cpSize j = a at *
  generalize responseCut layout totalLength responseLength cpSize (j + 1) = b at *
  generalize logitsOffset (chunkOf layout totalLength cpSize j) _ _ = interval at *
  simp only [assembleInterval]
  split
  · next hnone =>
      have hab : b = a := by omega
      refine congrArg Except.ok (Prod.ext (kept_congr fun t _ => ?_) ?_)
      · have hout : between a b t = false := by
          rw [Bool.eq_false_iff, ne_eq, between_iff]
          omega
        rw [hout, Bool.or_false]
      · simp only
        omega
  · next hsome =>
      have hlt : a < b := by omega
      obtain rfl := hoffset hlt
      have htaken : taken + (b - a) ≤ chunk.length := by
        have hcount := congrArg List.length hpiece
        rw [hlength, List.length_drop, List.length_take] at hcount
        omega
      have hslice : pySlice chunk (taken : Int) (taken + ((b : Int) + (totalLength -
            responseLength - 1) - (totalLength - responseLength - 1) - ((a : Int) + (totalLength -
              responseLength - 1) - (totalLength - responseLength - 1)))) =
          (xs.take b).drop a := by
        rw [← hpiece, hlength]
        exact pySlice_of_le rfl (by omega) (by omega) htaken
      rw [hslice, assignSlice_eq (a := a) (b := b) (by omega) (by omega) hmono (by simp; omega)
        hlength, except_ok_bind, hwrite, hlength]
      congr 2
      omega

theorem assembleChunk_eq (hfits : CoversResponse layout totalLength responseLength)
    (hlen : xs.length = responseLength) {keep : Nat → Bool} {cpRank : Nat}
    (hrank : cpRank < cpSize) :
    assembleChunk layout totalLength responseLength cpSize (kept keep xs)
        (cpRank, responseShare layout totalLength responseLength cpRank cpSize xs) =
      .ok (kept (fun t => keep t ||
        owns (responseCut layout totalLength responseLength cpSize) cpSize cpRank t) xs) := by
  have hfront := @assembleInterval_eq layout totalLength responseLength cpSize K _ xs hfits hlen
    keep (responseShare layout totalLength responseLength cpRank cpSize xs) 0 cpRank
    (by rw [responseShare, zigzag, Nat.zero_add, List.take_left, List.drop_zero])
  have hback := fun keep' => @assembleInterval_eq layout totalLength responseLength cpSize K _ xs
    hfits hlen keep' (responseShare layout totalLength responseLength cpRank cpSize xs)
    (0 + (cutPiece (responseCut layout totalLength responseLength cpSize) xs cpRank).length)
    (mirror cpSize cpRank)
    (by rw [responseShare, zigzag, Nat.zero_add, ← List.length_append, List.take_length,
      List.drop_left])
  simp only [assembleChunk, cpLogitsOffset, cpChunks_eq hrank]
  rw [hfront, except_ok_bind, hback, except_ok_bind,
    check_of (by rw [responseShare, zigzag, Nat.zero_add, List.length_append]), except_ok_bind]
  simp only [owns, Bool.or_assoc]

theorem assembleChunks_eq (hfits : CoversResponse layout totalLength responseLength)
    (hlen : xs.length = responseLength) (ranks : List Nat) :
    ∀ keep : Nat → Bool, (∀ cpRank ∈ ranks, cpRank < cpSize) →
      (ranks.map fun cpRank =>
          (cpRank, responseShare layout totalLength responseLength cpRank cpSize xs)).foldlM
        (assembleChunk layout totalLength responseLength cpSize) (kept keep xs) =
      .ok (kept (fun t => keep t || ranks.any fun cpRank =>
        owns (responseCut layout totalLength responseLength cpSize) cpSize cpRank t) xs) := by
  induction ranks with
  | nil =>
      intro keep _
      simp [pure, Except.pure]
  | cons cpRank ranks ih =>
      intro keep hranks
      rw [List.map_cons, List.foldlM_cons,
        assembleChunk_eq hfits hlen (hranks _ List.mem_cons_self), except_ok_bind,
        ih _ fun r hr => hranks r (List.mem_cons_of_mem _ hr)]
      simp only [List.any_cons, Bool.or_assoc]

/-- Assembled in any order, the shares of the ranks are the response. -/
theorem assembleLogProbFromCp_shares (hfits : CoversResponse layout totalLength responseLength)
    (hsize : 1 < cpSize) (hlen : xs.length = responseLength) {chunks : List (Nat × List K)}
    (hchunks : chunks.Perm ((List.range cpSize).map fun cpRank =>
      (cpRank, responseShare layout totalLength responseLength cpRank cpSize xs))) :
    assembleLogProbFromCp layout totalLength responseLength cpSize chunks = .ok xs := by
  have hranks : (chunks.map Prod.fst).Perm (List.range cpSize) := by
    have hfst := hchunks.map Prod.fst
    rw [List.map_map] at hfst
    exact hfst.trans (by rw [show (Prod.fst ∘ fun cpRank => (cpRank, responseShare layout
      totalLength responseLength cpRank cpSize xs)) = id from rfl, List.map_id])
  have hitems : chunks = (chunks.map Prod.fst).map fun cpRank =>
      (cpRank, responseShare layout totalLength responseLength cpRank cpSize xs) := by
    rw [List.map_map]
    refine (List.map_id' chunks).symm.trans (List.map_congr_left fun item hitem => ?_)
    obtain ⟨cpRank, _, rfl⟩ := List.mem_map.mp (hchunks.mem_iff.mp hitem)
    rfl
  have hmissing : (List.range cpSize).filter (fun cpRank => cpRank ∉ chunks.map Prod.fst) =
      [] := by
    rw [List.filter_eq_nil_iff]
    intro cpRank hcpRank
    simpa using hranks.mem_iff.mpr hcpRank
  have hlast := @responseCut_last layout totalLength responseLength cpSize hfits (by omega)
  have hnone : List.replicate responseLength (0 : K) = kept (fun _ => false) xs := by
    rw [kept_none fun _ _ => rfl, hlen]
  unfold assembleLogProbFromCp
  rw [check_of hsize, except_ok_bind]
  simp only [hmissing]
  rw [check_of trivial, except_ok_bind, hnone]
  conv_lhs => rw [hitems]
  rw [assembleChunks_eq hfits hlen _ _ fun cpRank hcpRank =>
    List.mem_range.mp (hranks.mem_iff.mp hcpRank)]
  refine congrArg Except.ok (kept_all fun t ht => ?_)
  have ht' : t < responseCut layout totalLength responseLength cpSize (2 * cpSize) := by omega
  obtain ⟨cpRank, hlt, howns⟩ := exists_owner responseCut_mono responseCut_zero ht'
  rw [Bool.false_or, List.any_eq_true]
  exact ⟨cpRank, hranks.mem_iff.mpr (List.mem_range.mpr hlt), howns⟩

/-- **Round trip.** What the ranks keep of a response is the response again, gathered by the
sum over the group or assembled rank by rank in any order. -/
theorem sliceLogProbWithCp_round_trip (layout : QkvLayout)
    (totalLength responseLength cpSize : Nat) (logProb : List K)
    (hfits : CoversResponse layout totalLength responseLength) (hsize : 1 < cpSize)
    (hlen : logProb.length = responseLength) :
    ∃ parts, ((List.range cpSize).mapM fun cpRank =>
        sliceLogProbWithCp layout totalLength responseLength cpRank cpSize logProb) = .ok parts ∧
      allGatherWithCp layout totalLength responseLength cpSize parts = .ok logProb ∧
      ∀ chunks, chunks.Perm ((List.range cpSize).zip parts) →
        assembleLogProbFromCp layout totalLength responseLength cpSize chunks = .ok logProb := by
  refine ⟨_, except_mapM_eq_ok fun cpRank hcpRank =>
    sliceLogProbWithCp_eq hfits (List.mem_range.mp hcpRank) (by omega) hlen,
    allGatherWithCp_shares hfits hsize hlen, fun chunks hchunks => ?_⟩
  refine assembleLogProbFromCp_shares hfits hsize hlen (hchunks.trans (.of_eq ?_))
  rw [List.zip_map_right, List.zip_eq_zipWith, List.zipWith_self, List.map_map]
  rfl

/-- A response of three tokens behind one, over two ranks and padded to eight. -/
theorem sliceLogProbWithCp_round_trip_two :
    ∃ parts, ((List.range 2).mapM fun cpRank =>
        sliceLogProbWithCp (.bshd 8) 4 3 cpRank 2 [(2 : ℚ), 3, 5]) = .ok parts ∧
      allGatherWithCp (.bshd 8) 4 3 2 parts = .ok [2, 3, 5] ∧
      ∀ chunks, chunks.Perm ((List.range 2).zip parts) →
        assembleLogProbFromCp (.bshd 8) 4 3 2 chunks = .ok [2, 3, 5] :=
  sliceLogProbWithCp_round_trip (.bshd 8) 4 3 2 [2, 3, 5] ⟨by decide, by decide⟩ (by decide) rfl

end Group

/-! ## Sums over the parts -/

section Sums

variable {K : Type} [Field K] {cpRank cpSize : Nat}

theorem splitLengths_flatten {α : Type} (parts : List (List α)) :
    splitLengths (parts.map List.length) parts.flatten = parts := by
  induction parts with
  | nil => rfl
  | cons part parts ih =>
      rw [List.map_cons, List.flatten_cons, splitLengths, List.take_left, List.drop_left, ih]

/-- The lengths of a response, its mask and its values fit each other. -/
structure FitsResponse (response : RolloutResponse K) (x : List K) : Prop where
  covers : CoversResponse response.layout response.totalLength response.responseLength
  mask : response.lossMask.length = response.responseLength
  values : x.length = response.responseLength

/-- The share of a response's values. -/
def valueShare (cpRank cpSize : Nat) (row : RolloutResponse K × List K) : List K :=
  responseShare row.1.layout row.1.totalLength row.1.responseLength cpRank cpSize row.2

/-- The shares of a response's values under the shares of its mask add up. -/
theorem sum_maskedTokenSum {row : RolloutResponse K × List K} (hfits : FitsResponse row.1 row.2)
    (hsize : 1 < cpSize) : (∑ r ∈ Finset.range cpSize,
        maskedTokenSum (valueShare r cpSize row) (localLossMask r cpSize row.1)) =
      maskedTokenSum row.2 row.1.lossMask := by
  have hlast := @responseCut_last row.1.layout row.1.totalLength row.1.responseLength cpSize
    hfits.covers (by omega)
  have hvalues := hfits.values
  have hmask := hfits.mask
  have hproducts : (List.zipWith (fun (v : K) (m : Nat) => v * m) row.2 row.1.lossMask).length ≤
      responseCut row.1.layout row.1.totalLength row.1.responseLength cpSize (2 * cpSize) := by
    rw [List.length_zipWith]
    omega
  rw [maskedTokenSum, ← sum_zigzag List.sum_nil (fun xs ys => List.sum_append) responseCut_mono
    responseCut_zero hproducts]
  refine Finset.sum_congr rfl fun r hr => ?_
  rw [localLossMask, if_neg (by omega), sliceLossMaskForLocalCp_eq hfits.covers
    (Finset.mem_range.mp hr) hmask, maskedTokenSum, valueShare, responseShare, responseShare,
    zigzag_zipWith _ (by omega)]

theorem sum_rows {α : Type} {rows : List α} (n : Nat) (f : Nat → α → K) (g : α → K)
    (h : ∀ row ∈ rows, (∑ r ∈ Finset.range n, f r row) = g row) :
    (∑ r ∈ Finset.range n, (rows.map (f r)).sum) = (rows.map g).sum := by
  induction rows with
  | nil => simp
  | cons row rows ih =>
      simp only [List.map_cons, List.sum_cons]
      rw [Finset.sum_add_distrib, h row List.mem_cons_self,
        ih fun row hrow => h row (List.mem_cons_of_mem _ hrow)]

variable [LinearOrder K]

/-- What a response's masked sum counts for. -/
def weighResponse (calculatePerTokenLoss : Bool) (response : RolloutResponse K) (total : K) : K :=
  if calculatePerTokenLoss then total else total / max response.denominator 1

theorem sum_weighResponse {perToken : Bool} {response : RolloutResponse K} (n : Nat)
    (totals : Nat → K) : (∑ r ∈ Finset.range n, weighResponse perToken response (totals r)) =
      weighResponse perToken response (∑ r ∈ Finset.range n, totals r) := by
  cases perToken with
  | true => rfl
  | false => exact (Finset.sum_div _ _ _).symm

/-- On one rank, where the values come as the shares of the responses' values. -/
theorem getSumOfSampleMean_shares {perToken : Bool} {rows : List (RolloutResponse K × List K)}
    (hrows : ∀ row ∈ rows, FitsResponse row.1 row.2) (hrank : cpRank < cpSize)
    (hsize : 1 < cpSize) :
    getSumOfSampleMean perToken cpRank cpSize (rows.map Prod.fst)
        (rows.map (valueShare cpRank cpSize)).flatten =
      (rows.map fun row => weighResponse perToken row.1 (maskedTokenSum
        (valueShare cpRank cpSize row) (localLossMask cpRank cpSize row.1))).sum := by
  have hlengths : localLengths cpRank cpSize (rows.map Prod.fst) =
      (rows.map (valueShare cpRank cpSize)).map List.length := by
    rw [localLengths, List.map_map, List.map_map]
    refine List.map_congr_left fun row hrow => ?_
    have hfits := hrows row hrow
    have hvalues := hfits.values
    have hmask := hfits.mask
    simp only [Function.comp, if_neg (show cpSize ≠ 1 by omega), localLossMask, valueShare]
    rw [sliceLossMaskForLocalCp_eq hfits.covers hrank hmask]
    simp only [responseShare, zigzag, List.length_append, cutPiece, List.length_drop,
      List.length_take, hmask, hvalues]
  unfold getSumOfSampleMean
  rw [hlengths, splitLengths_flatten, List.zipWith_map, List.zipWith_self]
  rfl

theorem getSumOfSampleMean_whole {perToken : Bool} {rows : List (RolloutResponse K × List K)}
    (hrows : ∀ row ∈ rows, FitsResponse row.1 row.2) :
    getSumOfSampleMean perToken 0 1 (rows.map Prod.fst) (rows.map Prod.snd).flatten =
      (rows.map fun row => weighResponse perToken row.1
        (maskedTokenSum row.2 row.1.lossMask)).sum := by
  have hlengths : localLengths 0 1 (rows.map Prod.fst) =
      (rows.map Prod.snd).map List.length := by
    rw [localLengths, List.map_map, List.map_map]
    exact List.map_congr_left fun row hrow => (hrows row hrow).values.symm
  unfold getSumOfSampleMean
  rw [hlengths, splitLengths_flatten, List.zipWith_map, List.zipWith_self]
  rfl

/-- **Parallel sums.** Each rank reduces its parts of the responses under its parts of the
masks, and the ranks together reduce to what one rank makes of the whole responses. -/
theorem getSumOfSampleMean_ranks (calculatePerTokenLoss : Bool) (cpSize : Nat)
    (rows : List (RolloutResponse K × List K)) (hsize : 1 < cpSize)
    (hrows : ∀ row ∈ rows, FitsResponse row.1 row.2) :
    ∃ parts : Nat → List (List K),
      (∀ cpRank < cpSize, (rows.mapM fun row => sliceLogProbWithCp row.1.layout
        row.1.totalLength row.1.responseLength cpRank cpSize row.2) = .ok (parts cpRank)) ∧
      (∑ cpRank ∈ Finset.range cpSize, getSumOfSampleMean calculatePerTokenLoss cpRank cpSize
          (rows.map Prod.fst) (parts cpRank).flatten) =
        getSumOfSampleMean calculatePerTokenLoss 0 1 (rows.map Prod.fst)
          (rows.map Prod.snd).flatten := by
  refine ⟨fun cpRank => rows.map (valueShare cpRank cpSize), fun cpRank hrank => ?_, ?_⟩
  · exact except_mapM_eq_ok fun row hrow => sliceLogProbWithCp_eq (hrows row hrow).covers hrank
      (by omega) (hrows row hrow).values
  · rw [Finset.sum_congr rfl fun cpRank hcpRank =>
      getSumOfSampleMean_shares hrows (Finset.mem_range.mp hcpRank) hsize,
      getSumOfSampleMean_whole hrows]
    refine sum_rows cpSize _ _ fun row hrow => ?_
    rw [sum_weighResponse, sum_maskedTokenSum (hrows row hrow) hsize]

/-- Three tokens of which one is masked, over two ranks. -/
def threeTokens : RolloutResponse ℚ × List ℚ :=
  (⟨.thd, 5, 3, [1, 0, 1], 2⟩, [2, 3, 5])

theorem getSumOfSampleMean_ranks_two :
    ∃ parts : Nat → List (List ℚ),
      (∀ cpRank < 2, ([threeTokens].mapM fun row => sliceLogProbWithCp row.1.layout
        row.1.totalLength row.1.responseLength cpRank 2 row.2) = .ok (parts cpRank)) ∧
      (∑ cpRank ∈ Finset.range 2, getSumOfSampleMean false cpRank 2
          ([threeTokens].map Prod.fst) (parts cpRank).flatten) =
        getSumOfSampleMean false 0 1 ([threeTokens].map Prod.fst)
          ([threeTokens].map Prod.snd).flatten :=
  getSumOfSampleMean_ranks false 2 [threeTokens] (by decide) fun row hrow => by
    obtain rfl := List.mem_singleton.mp hrow
    exact ⟨⟨by decide, by decide⟩, rfl, rfl⟩

end Sums

end Crisp.Proofs
