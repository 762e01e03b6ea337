import TsClient.Audio.Queue
import Mathlib.Data.List.GetD

/-!
The sliding window of `add_buffer_size`, as a release build runs it, with the tick
`cur_last_buffer_sample` counting recorded sizes modulo 2^16. The window is a monotone deque:
a push drops the entries at the back that are not smaller than the new size, then the entries
at the front more than `LAST_BUFFER_SIZE_COUNT` ticks old.

The proofs read the window through the insertion index of each entry (`WindowInv`). The
window then holds, in insertion order and with strictly increasing sizes, entries from the last
256 insertions, and every one of those insertions is undercut by an entry at or after it. So its
front is the minimum of the last 256 sizes (`addBufferSize_window`). The wrapping tick can be
read back as an index, because no entry is more than 257 ticks old when the front is expired.
-/

namespace TsClient.Audio

variable {D S : Type}

@[simp] theorem lastBufferSizeCount_toNat : lastBufferSizeCount.toNat = 256 := rfl

theorem dropWhile_eq_filter {α : Type} {p : α → Bool} :
    ∀ {l : List α}, l.Pairwise (fun a b => p b → p a) → l.dropWhile p = l.filter fun a => !p a
  | [], _ => rfl
  | a :: l, h => by
    rw [List.pairwise_cons] at h
    by_cases ha : p a
    · simp only [List.dropWhile_cons, ha, if_true, List.filter_cons, Bool.not_true]
      exact dropWhile_eq_filter h.2
    · have hl : l.filter (fun a => !p a) = l :=
        List.filter_eq_self.mpr fun b hb => by simpa using fun hb' => ha (h.1 b hb hb')
      simp [List.dropWhile_cons, ha, hl]

theorem ofNat_add_one_sub_ofNat {j k : Nat} (hj : j ≤ k + 1) (hk : k + 1 < j + 2 ^ 16) :
    (UInt16.ofNat k + 1 - UInt16.ofNat j).toNat = k + 1 - j := by
  rw [UInt16.toNat_sub, UInt16.toNat_add, UInt16.toNat_ofNat', UInt16.toNat_ofNat',
    show (1 : UInt16).toNat = 1 from rfl, UInt16.size]
  omega

theorem length_le_of_pairwise_lt : ∀ {js : List Nat} {lo hi : Nat}, js.Pairwise (· < ·) →
    (∀ j ∈ js, lo ≤ j ∧ j < hi) → js.length ≤ hi - lo
  | [], _, _, _, _ => Nat.zero_le _
  | j :: js, lo, hi, h, hb => by
    rw [List.pairwise_cons] at h
    have hj := hb j (List.mem_cons_self _ _)
    have ih : js.length ≤ hi - (j + 1) := length_le_of_pairwise_lt h.2
      fun i hi' => ⟨h.1 i hi', (hb i (List.mem_cons_of_mem _ hi')).2⟩
    simp only [List.length_cons]
    omega

theorem expire_eq {L : List Nat} {k : Nat} (g : Nat → Nat) (hL : L.Pairwise (· < ·))
    (hb : ∀ j ∈ L, j ≤ k ∧ k ≤ j + lastBufferSizeCount.toNat) :
    ((L.map fun j => (UInt16.ofNat j, g j)).dropWhile fun e =>
        lastBufferSizeCount < UInt16.ofNat k + 1 - e.1) =
      (L.filter fun j => k + 1 ≤ j + lastBufferSizeCount.toNat).map fun j => (UInt16.ofNat j, g j) := by
  have hage : ∀ j ∈ L, (UInt16.ofNat k + 1 - UInt16.ofNat j).toNat = k + 1 - j := fun j hj => by
    have := hb j hj
    simp only [lastBufferSizeCount_toNat] at this
    exact ofNat_add_one_sub_ofNat (by omega) (by omega)
  rw [dropWhile_eq_filter, List.filter_map]
  · congr 1
    refine List.filter_congr fun j hj => ?_
    simp only [Function.comp, UInt16.lt_iff_toNat_lt, hage j hj, lastBufferSizeCount_toNat,
      ← decide_not, decide_eq_decide]
    omega
  · rw [List.pairwise_map]
    refine hL.imp_of_mem fun ha hb' hab => ?_
    simp only [decide_eq_true_eq, UInt16.lt_iff_toNat_lt, hage _ ha, hage _ hb',
      lastBufferSizeCount_toNat]
    omega

namespace AudioQueue

/-- `add_buffer_size` in a release build, where `cur_last_buffer_sample += 1` wraps. -/
def addBufferSizeWrapping (q : AudioQueue D S) (size : Nat) : AudioQueue D S :=
  let kept := (q.lastBufferSamples.reverse.dropWhile fun e => size ≤ e.2).reverse
  let cur := q.curLastBufferSample + 1
  { q with
    lastBufferSamples :=
      (kept ++ [(q.curLastBufferSample, size)]).dropWhile fun e => lastBufferSizeCount < cur - e.1
    curLastBufferSample := cur }

/-- Where the debug build's `add_buffer_size` returns, it does what the release build does. -/
theorem addBufferSize_eq_wrapping {q q' : AudioQueue D S} {size : Nat}
    (h : q.addBufferSize size = .ok q') : q' = q.addBufferSizeWrapping size := by
  unfold addBufferSize at h
  split at h
  · cases h
  · rename_i cur hcur
    obtain ⟨-, rfl⟩ := addU16_eq_ok hcur
    exact (Except.ok.inj h).symm

end AudioQueue

/-- The window after the sizes `sizes`, read through the insertion indices `js` of its entries:
the last `LAST_BUFFER_SIZE_COUNT` insertions, increasing, each covered by a size not larger. -/
structure WindowInv (sizes js : List Nat) (q : AudioQueue D S) : Prop where
  tick : q.curLastBufferSample.toNat = sizes.length % 2 ^ 16
  entries : q.lastBufferSamples = js.map fun j => (UInt16.ofNat j, sizes.getD j 0)
  sorted : js.Pairwise fun a b => a < b ∧ sizes.getD a 0 < sizes.getD b 0
  recent : ∀ j ∈ js, j < sizes.length ∧ sizes.length ≤ j + lastBufferSizeCount.toNat
  dominated : ∀ l < sizes.length, sizes.length ≤ l + lastBufferSizeCount.toNat →
    ∃ j ∈ js, l ≤ j ∧ sizes.getD j 0 ≤ sizes.getD l 0

/-- The insertion indices after the back pops and the push of size `s`. -/
def pushed (sizes js : List Nat) (s : Nat) : List Nat :=
  (js.filter fun j => sizes.getD j 0 < s) ++ [sizes.length]

theorem getD_mem_drop {l : List Nat} {m j : Nat} (hm : m ≤ j) (hj : j < l.length) :
    l.getD j 0 ∈ l.drop m := by
  rw [List.getD_eq_getElem _ _ hj]
  exact List.mem_drop_iff_getElem.mpr ⟨j - m, by omega, by simp only [Nat.add_sub_cancel' hm]⟩

namespace WindowInv

theorem empty {q : AudioQueue D S} (hw : q.lastBufferSamples = []) (hc : q.curLastBufferSample = 0) :
    WindowInv [] [] q :=
  ⟨by simp [hc], hw, List.Pairwise.nil, by simp, by simp⟩

variable {sizes js : List Nat} {q : AudioQueue D S}

theorem kept_eq (h : WindowInv sizes js q) (s : Nat) :
    (q.lastBufferSamples.reverse.dropWhile fun e => s ≤ e.2).reverse =
      (js.filter fun j => sizes.getD j 0 < s).map fun j => (UInt16.ofNat j, sizes.getD j 0) := by
  rw [dropWhile_eq_filter, List.filter_reverse, List.reverse_reverse, h.entries, List.filter_map]
  · congr 1
    exact List.filter_congr fun j _ => by simp only [Function.comp, ← Nat.not_lt, decide_not, Bool.not_not]
  · rw [List.pairwise_reverse, h.entries, List.pairwise_map]
    exact h.sorted.imp fun hab hs => by simp only [decide_eq_true_eq] at hs ⊢; omega

theorem cur_eq (h : WindowInv sizes js q) : q.curLastBufferSample = UInt16.ofNat sizes.length :=
  UInt16.ext (by rw [h.tick, UInt16.toNat_ofNat'])

theorem length_le (h : WindowInv sizes js q) : js.length ≤ lastBufferSizeCount.toNat := by
  have : js.length ≤ sizes.length - (sizes.length - lastBufferSizeCount.toNat) :=
    length_le_of_pairwise_lt (h.sorted.imp (·.1))
      fun j hj => ⟨by have := (h.recent j hj).2; omega, (h.recent j hj).1⟩
  omega

theorem ne_nil (h : WindowInv sizes js q) (hn : sizes ≠ []) : js ≠ [] := by
  have := List.length_pos.mpr hn
  obtain ⟨j, hj, -, -⟩ := h.dominated (sizes.length - 1) (by omega) (by simp; omega)
  exact List.ne_nil_of_mem hj

/-- The front entry's size is the minimum of the last `LAST_BUFFER_SIZE_COUNT` sizes. -/
theorem front_min {j : Nat} {js : List Nat} (h : WindowInv sizes (j :: js) q) :
    (sizes.drop (sizes.length - lastBufferSizeCount.toNat)).min? = some (sizes.getD j 0) := by
  have hj := h.recent j (List.mem_cons_self _ _)
  rw [List.min?_eq_some_iff']
  refine ⟨getD_mem_drop (by omega) hj.1, fun b hb => ?_⟩
  obtain ⟨i, hi, rfl⟩ := List.mem_drop_iff_getElem.mp hb
  obtain ⟨j', hj', -, hjl⟩ :=
    h.dominated (sizes.length - lastBufferSizeCount.toNat + i) (by omega) (by omega)
  rw [← List.getD_eq_getElem _ 0 (by omega)]
  refine le_trans ?_ hjl
  rcases List.mem_cons.mp hj' with rfl | hj'
  · exact le_rfl
  · exact ((List.pairwise_cons.mp h.sorted).1 j' hj').2.le

/-! The push of size `s`, by insertion index: the entries smaller than `s` stay, then the new
insertion, numbered `sizes.length`. -/

theorem getD_append_of_lt {s j : Nat} (hj : j < sizes.length) :
    (sizes ++ [s]).getD j 0 = sizes.getD j 0 :=
  List.getD_append _ _ _ _ hj

theorem getD_append_length (s : Nat) : (sizes ++ [s]).getD sizes.length 0 = s := by
  rw [List.getD_append_right _ _ _ _ le_rfl, Nat.sub_self]
  rfl

theorem mem_pushed {s j : Nat} :
    j ∈ pushed sizes js s ↔ (j ∈ js ∧ sizes.getD j 0 < s) ∨ j = sizes.length := by
  simp [pushed]

theorem pushed_bound (h : WindowInv sizes js q) (s : Nat) :
    ∀ j ∈ pushed sizes js s, j ≤ sizes.length ∧ sizes.length ≤ j + lastBufferSizeCount.toNat := by
  intro j hj
  rcases mem_pushed.mp hj with ⟨hj, -⟩ | rfl
  · exact ⟨(h.recent j hj).1.le, (h.recent j hj).2⟩
  · simp

theorem push_eq (h : WindowInv sizes js q) (s : Nat) :
    (q.lastBufferSamples.reverse.dropWhile fun e => s ≤ e.2).reverse ++
        [(q.curLastBufferSample, s)] =
      (pushed sizes js s).map fun j => (UInt16.ofNat j, (sizes ++ [s]).getD j 0) := by
  rw [h.kept_eq s, h.cur_eq, pushed, List.map_append, List.map_singleton, getD_append_length]
  congr 1
  refine List.map_congr_left fun j hj => ?_
  rw [getD_append_of_lt (h.recent j (List.mem_filter.mp hj).1).1]

theorem pushed_sorted (h : WindowInv sizes js q) (s : Nat) :
    (pushed sizes js s).Pairwise fun a b =>
      a < b ∧ (sizes ++ [s]).getD a 0 < (sizes ++ [s]).getD b 0 := by
  have hlt : ∀ {j}, j ∈ js.filter (fun j => sizes.getD j 0 < s) → j < sizes.length :=
    fun hj => (h.recent _ (List.mem_filter.mp hj).1).1
  refine List.pairwise_append.mpr ⟨?_, List.pairwise_singleton _ _, fun a ha b hb => ?_⟩
  · refine (h.sorted.sublist (List.filter_sublist _)).imp_of_mem fun ha hb hab => ?_
    rwa [getD_append_of_lt (hlt ha), getD_append_of_lt (hlt hb)]
  · rw [List.mem_singleton.mp hb, getD_append_length, getD_append_of_lt (hlt ha)]
    exact ⟨hlt ha, by simpa using (List.mem_filter.mp ha).2⟩

theorem add (h : WindowInv sizes js q) (s : Nat) :
    WindowInv (sizes ++ [s])
      ((pushed sizes js s).filter fun j => sizes.length + 1 ≤ j + lastBufferSizeCount.toNat)
      (q.addBufferSizeWrapping s) := by
  have hk : sizes.length ∈
      (pushed sizes js s).filter fun j => sizes.length + 1 ≤ j + lastBufferSizeCount.toNat := by
    simp [pushed]
  refine ⟨?_, ?_, (h.pushed_sorted s).sublist (List.filter_sublist _), fun j hj => ?_,
    fun l hl hrec => ?_⟩
  · simp only [AudioQueue.addBufferSizeWrapping, List.length_append, List.length_singleton]
    rw [UInt16.toNat_add, h.tick, show (1 : UInt16).toNat = 1 from rfl, UInt16.size]
    omega
  · simp only [AudioQueue.addBufferSizeWrapping]
    rw [h.push_eq, h.cur_eq, expire_eq _ ((h.pushed_sorted s).imp (·.1)) (h.pushed_bound s)]
  · obtain ⟨hjL, hj'⟩ := List.mem_filter.mp hj
    simp only [decide_eq_true_eq] at hj'
    simp only [List.length_append, List.length_singleton]
    exact ⟨Nat.lt_succ_of_le (h.pushed_bound s j hjL).1, hj'⟩
  · simp only [List.length_append, List.length_singleton] at hl hrec
    rcases Nat.lt_succ_iff_lt_or_eq.mp hl with hl | rfl
    · -- the entry that undercut `l` stays unless the new size undercuts it, and `l` in turn
      obtain ⟨j, hj, hlj, hjl⟩ := h.dominated l hl (by omega)
      have hjk := (h.recent j hj).1
      rw [getD_append_of_lt hl]
      by_cases hjs : sizes.getD j 0 < s
      · refine ⟨j, List.mem_filter.mpr ⟨mem_pushed.mpr (.inl ⟨hj, hjs⟩), ?_⟩, hlj, ?_⟩
        · simp only [decide_eq_true_eq]
          omega
        · rwa [getD_append_of_lt hjk]
      · refine ⟨_, hk, hl.le, ?_⟩
        rw [getD_append_length]
        exact (Nat.le_of_not_lt hjs).trans hjl
    · exact ⟨_, hk, le_rfl, le_rfl⟩

end WindowInv

theorem windowInv_foldl {q : AudioQueue D S} (hw : q.lastBufferSamples = [])
    (hc : q.curLastBufferSample = 0) (sizes : List Nat) :
    ∃ js, WindowInv sizes js (sizes.foldl AudioQueue.addBufferSizeWrapping q) := by
  induction sizes using List.reverseRecOn with
  | nil => exact ⟨[], WindowInv.empty hw hc⟩
  | append_singleton sizes s ih =>
    obtain ⟨js, h⟩ := ih
    rw [List.foldl_append, List.foldl_cons, List.foldl_nil]
    exact ⟨_, h.add s⟩

/-- From the empty window, the tick counts the sizes recorded modulo 2^16, and the front size,
which `get_min_queue_size` adds, is the minimum of the last `min(n, 256)` sizes. -/
theorem addBufferSize_window {q : AudioQueue D S} (hw : q.lastBufferSamples = [])
    (hc : q.curLastBufferSample = 0) (sizes : List Nat) (hn : sizes ≠ []) :
    let q' := sizes.foldl AudioQueue.addBufferSizeWrapping q
    q'.curLastBufferSample.toNat = sizes.length % 2 ^ 16 ∧ q'.lastBufferSamples ≠ [] ∧
      q'.lastBufferSamples.length ≤ lastBufferSizeCount.toNat ∧
      (q'.lastBufferSamples.map Prod.snd).Pairwise (· < ·) ∧
      (∃ js : List Nat, js.Pairwise (· < ·) ∧ (∀ j ∈ js, j < sizes.length) ∧
        q'.lastBufferSamples = js.map fun j => (UInt16.ofNat j, sizes.getD j 0)) ∧
      (sizes.drop (sizes.length - lastBufferSizeCount.toNat)).min? =
        some (q'.getMinQueueSize - q'.lastPacketSamples) := by
  intro q'
  obtain ⟨js, h⟩ := windowInv_foldl hw hc sizes
  obtain ⟨j, js', rfl⟩ := List.exists_cons_of_ne_nil (h.ne_nil hn)
  have hfront : q'.getMinQueueSize - q'.lastPacketSamples = sizes.getD j 0 := by
    simp [q', AudioQueue.getMinQueueSize, h.entries]
  refine ⟨h.tick, by simp [q', h.entries], by rw [h.entries, List.length_map]; exact h.length_le,
    ?_, ⟨_, h.sorted.imp (·.1), fun j hj => (h.recent j hj).1, h.entries⟩,
    by rw [hfront]; exact h.front_min⟩
  rw [h.entries, List.map_map]
  exact List.pairwise_map.mpr (h.sorted.imp (·.2))

/-- The queue `AudioQueue::new` builds before it records the first size. -/
def freshQueue : AudioQueue Nat Nat :=
  { decoder := 0, nextId := 0, whispering := false, packetBuffer := [], packetBufferSamples := 0,
    decodedBuffer := [], decodedPos := 0, lastPacketSamples := 1920, packetLossNum := 0,
    bufferingSamples := 0, lastBufferSamples := [], curLastBufferSample := 0,
    bufferedForSamples := 0 }

theorem addBufferSize_window_freshQueue :
    freshQueue.lastBufferSamples = [] ∧ freshQueue.curLastBufferSample = 0 ∧ [0, 5, 3] ≠ [] ∧
      let q' := [0, 5, 3].foldl AudioQueue.addBufferSizeWrapping freshQueue
      q'.curLastBufferSample.toNat = [0, 5, 3].length % 2 ^ 16 ∧ q'.lastBufferSamples ≠ [] ∧
        q'.lastBufferSamples.length ≤ lastBufferSizeCount.toNat ∧
        (q'.lastBufferSamples.map Prod.snd).Pairwise (· < ·) ∧
        (∃ js : List Nat, js.Pairwise (· < ·) ∧ (∀ j ∈ js, j < [0, 5, 3].length) ∧
          q'.lastBufferSamples = js.map fun j => (UInt16.ofNat j, [0, 5, 3].getD j 0)) ∧
        ([0, 5, 3].drop ([0, 5, 3].length - lastBufferSizeCount.toNat)).min? =
          some (q'.getMinQueueSize - q'.lastPacketSamples) :=
  ⟨rfl, rfl, by simp, addBufferSize_window rfl rfl [0, 5, 3] (by simp)⟩

end TsClient.Audio
