import PooledStore.FileTree

/-!
# The names of a path

What a path says is its names, the segments that name something, and whether it begins at the root.
Joining a relative path puts its names behind those of the other one (`Path.names_join`). The path
made absolute is written with a front of slashes and its names alone, one slash between each two
(`Path.written_absolute`); so it leads along the same names as before, every `..` among them
(`Path.Written.trail`).
-/

set_option autoImplicit false

namespace PooledStore.Path

open Text

variable {p q : Path} {n s : Bytes} {ns ms : List Bytes} {slashes : Bytes} {cwd : Location}

/-! ## Segments -/

theorem segmentsOf_append_slash (a b : Bytes) :
    segmentsOf (a ++ slash :: b) = segmentsOf a ++ segmentsOf b := by
  induction a with
  | nil => simp [segmentsOf]
  | cons x a ih =>
      by_cases hx : x = slash
      · simp [segmentsOf, hx, ih]
      · obtain ⟨s, more, hs⟩ := List.exists_cons_of_ne_nil (segmentsOf_ne_nil a)
        simp [segmentsOf, hx, ih, hs]

theorem slash_notMem_of_mem_segmentsOf {bs : Bytes} (h : s ∈ segmentsOf bs) : slash ∉ s := by
  induction bs generalizing s with
  | nil =>
      rw [segmentsOf, List.mem_singleton] at h
      rw [h]
      exact List.not_mem_nil
  | cons x bs ih =>
      by_cases hx : x = slash
      · rw [segmentsOf, if_pos hx, List.mem_cons] at h
        obtain rfl | h := h
        · exact List.not_mem_nil
        · exact ih h
      · obtain ⟨first, more, hs⟩ := List.exists_cons_of_ne_nil (segmentsOf_ne_nil bs)
        rw [segmentsOf, if_neg hx, hs, List.mem_cons] at h
        rw [hs] at ih
        obtain rfl | h := h
        · have hfirst : slash ∉ first := ih List.mem_cons_self
          rw [List.mem_cons, not_or]
          exact ⟨Ne.symm hx, hfirst⟩
        · exact ih (List.mem_cons_of_mem _ h)

theorem segmentsOf_of_notMem {bs : Bytes} (h : slash ∉ bs) : segmentsOf bs = [bs] := by
  induction bs with
  | nil => rfl
  | cons x bs ih =>
      rw [List.mem_cons, not_or] at h
      rw [segmentsOf, if_neg (Ne.symm h.1), ih h.2]

/-- What is written with separators splits into the segments it was written from. -/
theorem segmentsOf_bytesOf (hne : ns ≠ []) (h : ∀ n ∈ ns, slash ∉ n) :
    segmentsOf (bytesOf ns) = ns := by
  induction ns with
  | nil => exact absurd rfl hne
  | cons n ns ih =>
      rw [List.forall_mem_cons] at h
      cases ns with
      | nil => exact segmentsOf_of_notMem h.1
      | cons m ms =>
          show segmentsOf (n ++ slash :: bytesOf (m :: ms)) = _
          rw [segmentsOf_append_slash, segmentsOf_of_notMem h.1, ih (List.cons_ne_nil _ _) h.2]
          rfl

theorem bytesOf_concat (hne : ns ≠ []) : bytesOf (ns ++ [n]) = bytesOf ns ++ slash :: n := by
  induction ns with
  | nil => exact absurd rfl hne
  | cons m ns ih =>
      cases ns with
      | nil => rfl
      | cons m' ms =>
          calc m ++ slash :: bytesOf (m' :: ms ++ [n])
              = m ++ slash :: (bytesOf (m' :: ms) ++ slash :: n) := by
                rw [ih (List.cons_ne_nil _ _)]
            _ = (m ++ slash :: bytesOf (m' :: ms)) ++ slash :: n := by simp

/-! ## Names -/

/-- Something that a path can lead along: it names something, and no separator is in it. -/
def IsName (n : Bytes) : Prop := isVoid n = false ∧ slash ∉ n

theorem IsName.ne_nil (h : IsName n) : n ≠ [] := by
  rintro rfl
  cases h.1

theorem IsName.relative (h : IsName n) : (⟨n⟩ : Path).isAbsolute = false := by
  obtain ⟨b, rest, rfl⟩ := List.exists_cons_of_ne_nil h.ne_nil
  have hb : b ≠ slash := fun hb => h.2 (hb ▸ List.mem_cons_self)
  simpa [isAbsolute] using hb

theorem IsName.getLast?_ne (h : IsName n) : n.getLast? ≠ some slash :=
  fun hl => h.2 (List.mem_of_getLast? hl)

theorem isName_of_mem_names (h : n ∈ p.names) : IsName n := by
  obtain ⟨hs, hv⟩ := List.mem_filter.mp h
  exact ⟨by simpa using hv, slash_notMem_of_mem_segmentsOf hs⟩

theorem names_of_isName (h : IsName n) : (⟨n⟩ : Path).names = [n] := by
  show (segmentsOf n).filter _ = _
  rw [segmentsOf_of_notMem h.2, List.filter_cons_of_pos (by rw [h.1]; rfl)]
  rfl

/-- Names may be told apart at any separator. -/
theorem names_append_slash (a b : Bytes) :
    (⟨a ++ slash :: b⟩ : Path).names = (⟨a⟩ : Path).names ++ (⟨b⟩ : Path).names := by
  show (segmentsOf (a ++ slash :: b)).filter _ = _
  rw [segmentsOf_append_slash, List.filter_append]
  rfl

theorem names_join (hq : q.isAbsolute = false) : (p.join q).names = p.names ++ q.names := by
  unfold join
  rw [hq, if_neg Bool.false_ne_true]
  split
  · next hp =>
      obtain hempty | hlast := Bool.or_eq_true_iff.mp hp
      · obtain ⟨bytes⟩ := p
        obtain rfl : bytes = [] := by simpa using hempty
        rfl
      · obtain ⟨init, hinit⟩ := List.getLast?_eq_some_iff.mp (eq_of_beq hlast)
        have hp' : p = ⟨init ++ slash :: []⟩ := congrArg Path.mk hinit
        rw [hp', List.append_assoc, List.singleton_append, names_append_slash, names_append_slash]
        simp [names, segments, segmentsOf, isVoid]
  · exact names_append_slash _ _

/-! ## Joining to a path that is not empty -/

theorem getLast?_join (hq : q.isAbsolute = false) (hne : q.bytes ≠ []) :
    (p.join q).bytes.getLast? = q.bytes.getLast? := by
  obtain ⟨sep, hjoin, -⟩ := join_of_relative (p := p) hq
  rw [hjoin, List.getLast?_append, List.getLast?_eq_some_getLast hne]
  rfl

theorem isAbsolute_join_of_relative (hp : p.bytes ≠ []) (hq : q.isAbsolute = false) :
    (p.join q).isAbsolute = p.isAbsolute := by
  obtain ⟨sep, hjoin, -⟩ := join_of_relative (p := p) hq
  obtain ⟨b, rest, hb⟩ := List.exists_cons_of_ne_nil hp
  rw [isAbsolute, isAbsolute, hjoin, hb]
  rfl

/-- A relative path adds nothing to the slashes at the front. -/
theorem slashes_prefix_join {k : Nat} (hp : p.bytes ≠ []) (hq : q.isAbsolute = false) :
    List.replicate k slash <+: (p.join q).bytes ↔ List.replicate k slash <+: p.bytes := by
  obtain ⟨sep, hjoin, -⟩ := join_of_relative (p := p) hq
  have hpre : p.bytes <+: (p.join q).bytes := ⟨sep ++ q.bytes, by rw [hjoin, List.append_assoc]⟩
  refine ⟨fun hk => ?_, fun hk => hk.trans hpre⟩
  obtain h | ⟨t, ht⟩ := List.prefix_or_prefix_of_prefix hk hpre
  · exact h
  -- Otherwise the path is nothing but slashes, and the next one would be the first byte of `q`.
  · have hall : ∀ b ∈ p.bytes ++ t, b = slash := by
      rw [ht]
      exact fun b hb => List.eq_of_mem_replicate hb
    have hlast : p.bytes.getLast? = some slash := by
      rw [List.getLast?_eq_some_getLast hp]
      exact congrArg some (hall _ (List.mem_append_left _ (List.getLast_mem hp)))
    have hbytes : (p.join q).bytes = p.bytes ++ q.bytes := by
      unfold join
      rw [hq, if_neg Bool.false_ne_true, hlast, if_pos (by simp)]
    rw [← ht, hbytes, List.prefix_append_right_inj] at hk
    cases t with
    | nil => exact ⟨[], (List.append_nil _).trans (ht.symm.trans (List.append_nil _))⟩
    | cons b t =>
        obtain rfl : b = slash := hall b (by simp)
        obtain ⟨rest, hrest⟩ := hk
        rw [isAbsolute, ← hrest] at hq
        cases hq

/-! ## Paths written with their names alone -/

/-- Behind the front the path is written with these names and one separator between each two. -/
def Written (slashes : Bytes) (ns : List Bytes) (p : Path) : Prop :=
  p.bytes = slashes ++ bytesOf ns

theorem getLast?_bytesOf (hn : n ≠ []) : (bytesOf (ns ++ [n])).getLast? = n.getLast? := by
  cases ns with
  | nil => rfl
  | cons m ms =>
      rw [bytesOf_concat (List.cons_ne_nil _ _), List.getLast?_append, List.getLast?_cons,
        List.getLast?_eq_some_getLast hn]
      rfl

theorem Written.join (h : Written slashes ns p) (hf : slashes.getLast? = some slash)
    (hns : ∀ m ∈ ns, IsName m) (hn : IsName n) : Written slashes (ns ++ [n]) (p.join ⟨n⟩) := by
  have hjoin : p.join ⟨n⟩ = if p.bytes.isEmpty || p.bytes.getLast? == some slash
      then ⟨p.bytes ++ n⟩ else ⟨p.bytes ++ slash :: n⟩ := by
    unfold Path.join
    rw [hn.relative, if_neg Bool.false_ne_true]
  rw [hjoin]
  obtain rfl | ⟨init, last, rfl⟩ := List.eq_nil_or_concat ns
  · have hp : p.bytes = slashes := h.trans (List.append_nil slashes)
    rw [hp, hf, if_pos (by simp)]
    rfl
  · have hlast : IsName last := hns last (by simp)
    have hp : p.bytes.getLast? = last.getLast? := by
      rw [h, List.concat_eq_append, List.getLast?_append, getLast?_bytesOf hlast.ne_nil]
      cases hl : last.getLast? with
      | none => exact absurd (List.getLast?_eq_none_iff.mp hl) hlast.ne_nil
      | some b => rfl
    have hne : p.bytes ≠ [] := by
      intro hnil
      rw [hnil] at hp
      exact hlast.ne_nil (List.getLast?_eq_none_iff.mp hp.symm)
    have hslash : p.bytes.getLast? ≠ some slash := hp ▸ hlast.getLast?_ne
    rw [if_neg (by simp [hne, hslash])]
    calc p.bytes ++ slash :: n
        = slashes ++ (bytesOf (init.concat last) ++ slash :: n) := by rw [h, List.append_assoc]
      _ = slashes ++ bytesOf (init.concat last ++ [n]) := by rw [bytesOf_concat (by simp)]

theorem Written.foldl (h : Written slashes ns p) (hf : slashes.getLast? = some slash)
    (hns : ∀ m ∈ ns, IsName m) (hms : ∀ m ∈ ms, IsName m) :
    Written slashes (ns ++ ms) (ms.foldl (fun q n => q.join ⟨n⟩) p) := by
  induction ms generalizing ns p with
  | nil => rwa [List.append_nil]
  | cons n ms ih =>
      rw [List.forall_mem_cons] at hms
      have hnext : ∀ m ∈ ns ++ [n], IsName m :=
        List.forall_mem_append.mpr ⟨hns, List.forall_mem_singleton.mpr hms.1⟩
      have htail := ih (h.join hf hns hms.1) hnext hms.2
      rwa [List.append_assoc, List.singleton_append] at htail

/-! ## Paths from the root -/

/-- The slashes in front of the path made absolute: two if it begins with two and not with three,
else one. -/
def front (p : Path) : Bytes :=
  if [slash, slash] <+: p.bytes ∧ ¬ [slash, slash, slash] <+: p.bytes then [slash, slash]
  else [slash]

/-- The names along which a path leads from the root, where relative paths begin in `cwd`. -/
def trail (cwd : Location) (p : Path) : Location :=
  if p.isAbsolute then p.names else cwd ++ p.names

theorem getLast?_front : p.front.getLast? = some slash := by
  unfold front
  split <;> rfl

theorem hasDoubleRoot_iff : p.hasDoubleRoot = true ↔
    [slash, slash] <+: p.bytes ∧ ¬ [slash, slash, slash] <+: p.bytes := by
  rw [hasDoubleRoot, Bool.and_eq_true, beq_iff_eq, bne_iff_ne, List.prefix_iff_eq_take,
    List.prefix_iff_eq_take]
  exact and_congr eq_comm (not_congr eq_comm)

theorem front_of_relative (h : p.isAbsolute = false) : p.front = [slash] := by
  refine if_neg fun hp => ?_
  obtain ⟨rest, hrest⟩ := hp.1
  rw [isAbsolute, ← hrest] at h
  cases h

theorem front_join (hp : p.bytes ≠ []) (hq : q.isAbsolute = false) :
    (p.join q).front = p.front := by
  have two : [slash, slash] <+: (p.join q).bytes ↔ [slash, slash] <+: p.bytes :=
    slashes_prefix_join (k := 2) hp hq
  have three : [slash, slash, slash] <+: (p.join q).bytes ↔ [slash, slash, slash] <+: p.bytes :=
    slashes_prefix_join (k := 3) hp hq
  simp only [front, two, three]

theorem trail_join (hp : p.bytes ≠ []) (hq : q.isAbsolute = false) :
    (p.join q).trail cwd = p.trail cwd ++ q.names := by
  unfold trail
  rw [isAbsolute_join_of_relative hp hq, names_join hq]
  split
  · rfl
  · exact (List.append_assoc _ _ _).symm

theorem isName_of_mem_trail (hc : ∀ m ∈ cwd, IsName m) (h : n ∈ p.trail cwd) : IsName n := by
  unfold trail at h
  split at h
  · exact isName_of_mem_names h
  · obtain h | h := List.mem_append.mp h
    · exact hc n h
    · exact isName_of_mem_names h

theorem written_pathOf (hc : ∀ m ∈ cwd, IsName m) : Written [slash] cwd (FileTree.pathOf cwd) := by
  have hroot : Written [slash] [] ⟨[slash]⟩ := rfl
  exact hroot.foldl rfl (fun _ hm => absurd hm List.not_mem_nil) hc

/-- **The path made absolute is written with the names along which the path leads.** -/
theorem written_absolute (hc : ∀ m ∈ cwd, IsName m) (hend : p.bytes.getLast? ≠ some slash) :
    Written p.front (p.trail cwd) (p.absolute (FileTree.pathOf cwd)) := by
  have hnames : ∀ m ∈ p.names, IsName m := fun m hm => isName_of_mem_names hm
  have hlast : ¬ (p.bytes.getLast? == some slash) = true := fun h => hend (eq_of_beq h)
  unfold absolute
  dsimp only
  rw [if_neg hlast]
  cases hp : p.isAbsolute with
  | true =>
      have hstart : Written p.front []
          (if p.hasDoubleRoot then ⟨[slash, slash]⟩ else ⟨[slash]⟩ : Path) := by
        rw [Written, bytesOf, List.append_nil, front]
        by_cases hd : p.hasDoubleRoot = true
        · rw [if_pos hd, if_pos (hasDoubleRoot_iff.mp hd)]
        · rw [if_neg hd, if_neg (mt hasDoubleRoot_iff.mpr hd)]
      rw [trail, if_pos hp, if_pos rfl]
      exact hstart.foldl getLast?_front (fun _ hm => absurd hm List.not_mem_nil) hnames
  | false =>
      rw [trail, hp, if_neg Bool.false_ne_true, if_neg Bool.false_ne_true, front_of_relative hp]
      exact (written_pathOf hc).foldl rfl hc hnames

/-! ## What such a path says -/

theorem front_cases (p : Path) : p.front = [slash] ∨ p.front = [slash, slash] := by
  unfold front
  split
  · exact Or.inr rfl
  · exact Or.inl rfl

theorem Written.isAbsolute (h : Written p.front ns q) : q.isAbsolute = true := by
  rw [Path.isAbsolute, h]
  obtain hf | hf := p.front_cases
  · rw [hf]
    rfl
  · rw [hf]
    rfl

/-- Behind its front the path has no void segment. -/
theorem Written.segments (h : Written p.front ns q) (hne : ns ≠ []) (hns : ∀ m ∈ ns, IsName m) :
    ∃ voids, (voids = [[]] ∨ voids = [[], []]) ∧ q.segments = voids ++ ns := by
  have hsplit := segmentsOf_bytesOf hne fun m hm => (hns m hm).2
  unfold Path.segments
  rw [h]
  obtain hf | hf := p.front_cases
  · exact ⟨[[]], Or.inl rfl, by simp [hf, segmentsOf, hsplit]⟩
  · exact ⟨[[], []], Or.inr rfl, by simp [hf, segmentsOf, hsplit]⟩

theorem Written.names (h : Written p.front ns q) (hne : ns ≠ []) (hns : ∀ m ∈ ns, IsName m) :
    q.names = ns := by
  obtain ⟨voids, hvoids, hs⟩ := h.segments hne hns
  have hall : ns.filter (!isVoid ·) = ns :=
    List.filter_eq_self.mpr fun m hm => by rw [(hns m hm).1]; rfl
  rw [Path.names, hs, List.filter_append, hall]
  obtain rfl | rfl := hvoids
  · rfl
  · rfl

/-- It leads along the same names wherever relative paths begin. -/
theorem Written.trail (h : Written p.front ns q) (hne : ns ≠ []) (hns : ∀ m ∈ ns, IsName m) :
    q.trail cwd = ns := by
  rw [Path.trail, if_pos h.isAbsolute, h.names hne hns]

theorem Written.fileName? (h : Written p.front (ns ++ [n]) q) (hns : ∀ m ∈ ns ++ [n], IsName m)
    (hup : n ≠ up) : q.fileName? = some n := by
  have hn : isVoid n = false := (hns n (by simp)).1
  obtain ⟨voids, hvoids, hs⟩ := h.segments (by simp) hns
  obtain ⟨rest, hrest⟩ : ∃ rest, q.segments = [] :: (rest ++ [n]) := by
    obtain rfl | rfl := hvoids
    · exact ⟨ns, hs⟩
    · exact ⟨[] :: ns, hs⟩
  unfold Path.fileName?
  rw [hrest]
  dsimp only
  rw [List.reverse_append, List.reverse_singleton, List.singleton_append, trimBack,
    List.dropWhile_cons_of_neg (by rw [hn]; exact Bool.false_ne_true)]
  dsimp only
  rw [if_neg hup]

end PooledStore.Path
