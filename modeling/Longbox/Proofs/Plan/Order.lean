import Longbox.Proofs.Plan.Orphan

/-! Whether a plan depends on the order of the archives.

Of several archives that match a chapter alike the first one decides about it. `holders` are those
that come first in one order or another, and `verdict` is what each of them makes of the chapter.
`plan_perm_iff` says exactly when all orders lead to the same downloads and removals. -/
namespace Longbox.Planner
variable {p : Planner} {catalog : List Chapter} {c : Chapter} {a b : Archive} {archives : List Archive}

/-- The archive matches a chapter that no whole-volume archive covers: by its name, or if no archive
has that, by its markers. -/
def isHolder (p : Planner) (c : Chapter) (a : Archive) : Bool :=
  let name := Archive.Name.ofStem (p.naming.contentName c)
  !p.hasVolumeArchive c &&
    if (p.byName? name).isSome then a.name == name
    else !c.isOneShot && carries (Marker.trim c.volume) (Marker.trim c.number) a

def holders (p : Planner) (c : Chapter) : List Archive :=
  p.existing.filter (p.isHolder c)

/-- What is decided about a chapter that the archive holds. -/
def verdict (p : Planner) (c : Chapter) (a : Archive) : Decision :=
  if c.volume.isEmpty then .skip
  else match p.embeddedVolume a with
    | none => .skip
    | some recorded =>
      if Marker.trim recorded == Marker.trim c.volume then .skip else .replace a.path

/-- What is decided about a chapter that no archive holds. -/
def unheld (p : Planner) (c : Chapter) : Decision :=
  if p.hasVolumeArchive c || (p.skipVolumeWithoutChapter && !c.volume.isEmpty && c.isOneShot) then .skip
  else .download

/-! ### Decisions by the first holder -/

theorem find?_isHolder (p : Planner) (c : Chapter) :
    p.existing.find? (p.isHolder c) = if p.hasVolumeArchive c then none else p.archiveOf? c := by
  cases hv : p.hasVolumeArchive c with
  | true => simp [isHolder, hv]
  | false =>
    rw [if_neg (by simp), archiveOf?]
    cases hn : p.byName? (Archive.Name.ofStem (p.naming.contentName c)) with
    | some a =>
      have named : p.isHolder c =
          fun a => a.name == Archive.Name.ofStem (p.naming.contentName c) := by
        funext a
        simp [isHolder, hv, hn]
      rw [named]
      exact hn
    | none =>
      cases ho : c.isOneShot with
      | true => simp [isHolder, hv, hn, ho]
      | false =>
        have marked : p.isHolder c = carries (Marker.trim c.volume) (Marker.trim c.number) := by
          funext a
          simp [isHolder, hv, hn, ho]
        rw [marked]
        rfl

theorem decide_eq (p : Planner) (c : Chapter) :
    p.decide c = ((p.existing.find? (p.isHolder c)).map (p.verdict c)).getD (p.unheld c) := by
  rw [find?_isHolder]
  unfold decide unheld
  cases hv : p.hasVolumeArchive c with
  | true => rfl
  | false =>
    simp only [Bool.false_eq_true, if_false, Bool.false_or]
    cases p.archiveOf? c <;> rfl

theorem mem_holders : a ∈ p.holders c ↔ a ∈ p.existing ∧ p.isHolder c a = true :=
  List.mem_filter

/-- A chapter is decided about by one of its holders, if it has any. -/
theorem decide_cases (p : Planner) (c : Chapter) :
    (∃ a ∈ p.holders c, p.decide c = p.verdict c a) ∨ p.holders c = [] ∧ p.decide c = p.unheld c := by
  rw [decide_eq]
  cases hf : p.existing.find? (p.isHolder c) with
  | some a =>
    exact .inl ⟨a, mem_holders.mpr ⟨List.mem_of_find?_eq_some hf, List.find?_some hf⟩, rfl⟩
  | none =>
    refine .inr ⟨List.filter_eq_nil_iff.mpr ?_, rfl⟩
    simpa using hf

theorem verdict_cases (p : Planner) (c : Chapter) (a : Archive) :
    p.verdict c a = .skip ∨ p.verdict c a = .replace a.path := by
  unfold verdict
  split
  · exact .inl rfl
  · split
    · exact .inl rfl
    · split
      · exact .inl rfl
      · exact .inr rfl

theorem path_of_verdict {path : String} (h : p.verdict c a = .replace path) : a.path = path := by
  rcases p.verdict_cases c a with hskip | hreplace
  · cases hskip.symm.trans h
  · cases hreplace.symm.trans h
    rfl

theorem unheld_ne_replace {path : String} : p.unheld c ≠ .replace path := by
  unfold unheld
  split <;> nofun

/-! ### Archives in another order -/

/-- The planner with its archives in this order. -/
def reordered (p : Planner) (archives : List Archive) : Planner :=
  { p with existing := archives }

section
variable (h : archives.Perm p.existing)
include h

theorem isSome_byName?_reordered (name : String) :
    ((p.reordered archives).byName? name).isSome = (p.byName? name).isSome := by
  unfold byName? reordered
  rw [Bool.eq_iff_iff, List.find?_isSome, List.find?_isSome]
  exact exists_congr fun a => and_congr_left fun _ => h.mem_iff

theorem hasVolumeArchive_reordered (c : Chapter) :
    (p.reordered archives).hasVolumeArchive c = p.hasVolumeArchive c := by
  simp only [hasVolumeArchive, isSome_byName?_reordered h]
  rfl

theorem isHolder_reordered (c : Chapter) : (p.reordered archives).isHolder c = p.isHolder c := by
  funext a
  simp only [isHolder, hasVolumeArchive_reordered h, isSome_byName?_reordered h]
  rfl

theorem mem_holders_reordered : a ∈ (p.reordered archives).holders c ↔ a ∈ p.holders c := by
  rw [mem_holders, mem_holders, isHolder_reordered h]
  exact and_congr_left fun _ => h.mem_iff

theorem unheld_reordered (c : Chapter) : (p.reordered archives).unheld c = p.unheld c := by
  simp only [unheld, hasVolumeArchive_reordered h]
  rfl

end

/-- Any holder comes first in some order, and decides then. -/
theorem exists_order_first (ha : a ∈ p.holders c) :
    ∃ archives : List Archive, archives.Perm p.existing ∧
      (p.reordered archives).decide c = p.verdict c a := by
  obtain ⟨hmem, hholder⟩ := mem_holders.mp ha
  have hperm : (a :: p.existing.erase a).Perm p.existing := (List.perm_cons_erase hmem).symm
  refine ⟨_, hperm, ?_⟩
  rw [decide_eq, isHolder_reordered hperm, reordered, List.find?_cons_of_pos hholder]
  rfl

/-- The archives that may hold a chapter agree on whether it is left out. -/
def Agrees (p : Planner) (c : Chapter) : Prop :=
  ∀ a ∈ p.holders c, ∀ b ∈ p.holders c, p.verdict c a = .skip → p.verdict c b = .skip

/-- In some order an archive at the path decides only about chapters that no other archive holds. -/
theorem exists_order_last (path : String) (hagree : ∀ c ∈ catalog, p.Agrees c) :
    ∃ archives : List Archive, archives.Perm p.existing ∧
      ∀ c ∈ catalog, (p.reordered archives).decide c = .replace path →
        p.holders c ≠ [] ∧ ∀ b ∈ p.holders c, p.verdict c b = .replace path := by
  have hperm : (p.existing.filter (fun a => a.path != path) ++
      p.existing.filter (fun a => !(a.path != path))).Perm p.existing :=
    List.filter_append_perm _ _
  refine ⟨_, hperm, fun c hmem hc => ?_⟩
  rw [decide_eq, isHolder_reordered hperm, unheld_reordered hperm, reordered, List.find?_append] at hc
  cases hfront : (p.existing.filter fun a => a.path != path).find? (p.isHolder c) with
  | some a =>
    have haway := (List.mem_filter.mp (List.mem_of_find?_eq_some hfront)).2
    rw [hfront] at hc
    rw [path_of_verdict (p := p) hc] at haway
    simp at haway
  | none =>
    have hall : ∀ b ∈ p.holders c, b.path = path := fun b hb => by
      obtain ⟨hmem, hholder⟩ := mem_holders.mp hb
      refine Decidable.byContradiction fun haway => ?_
      exact List.find?_eq_none.mp hfront b (List.mem_filter.mpr ⟨hmem, by simpa using haway⟩) hholder
    rw [hfront, Option.none_or] at hc
    cases hback : (p.existing.filter fun a => !(a.path != path)).find? (p.isHolder c) with
    | none =>
      rw [hback] at hc
      exact absurd hc unheld_ne_replace
    | some a =>
      have ha : a ∈ p.holders c := mem_holders.mpr
        ⟨(List.mem_filter.mp (List.mem_of_find?_eq_some hback)).1, List.find?_some hback⟩
      rw [hback] at hc
      have replaces : p.verdict c a = .replace path := hc
      refine ⟨List.ne_nil_of_mem ha, fun b hb => ?_⟩
      rcases p.verdict_cases c b with hskip | hreplace
      · cases (hagree c hmem b hb a ha hskip).symm.trans replaces
      · rw [hreplace, hall b hb]

/-! ### The same plan in every order -/

/-- Whichever archive holds the chapter, the one at the path is superseded. -/
def AlwaysReplaces (p : Planner) (c : Chapter) (path : String) : Prop :=
  p.holders c ≠ [] ∧ ∀ a ∈ p.holders c, p.verdict c a = .replace path

/-- What is superseded for a chapter in some order is superseded, for some chapter, in all. -/
def Insists (p : Planner) (catalog : List Chapter) : Prop :=
  ∀ c ∈ catalog, ∀ a ∈ p.holders c, p.verdict c a = .replace a.path →
    ∃ c' ∈ catalog, p.AlwaysReplaces c' a.path

instance (p : Planner) (c : Chapter) : Decidable (p.Agrees c) :=
  inferInstanceAs (Decidable (∀ a ∈ p.holders c, ∀ b ∈ p.holders c,
    p.verdict c a = .skip → p.verdict c b = .skip))

instance (p : Planner) (c : Chapter) (path : String) : Decidable (p.AlwaysReplaces c path) :=
  inferInstanceAs (Decidable (_ ∧ ∀ a ∈ p.holders c, p.verdict c a = .replace path))

instance (p : Planner) (catalog : List Chapter) : Decidable (p.Insists catalog) :=
  inferInstanceAs (Decidable (∀ c ∈ catalog, ∀ a ∈ p.holders c,
    p.verdict c a = .replace a.path → ∃ c' ∈ catalog, p.AlwaysReplaces c' a.path))

theorem mem_toRemove_iff (hi : p.Insists catalog) {path : String} :
    path ∈ (p.plan catalog).toRemove ↔ ∃ c ∈ catalog, p.AlwaysReplaces c path := by
  rw [mem_toRemove]
  constructor
  · rintro ⟨c, hc, hd⟩
    rcases p.decide_cases c with ⟨a, ha, hv⟩ | ⟨-, hu⟩
    · rw [hv] at hd
      have hpath := path_of_verdict hd
      exact hpath ▸ hi c hc a ha (hpath ▸ hd)
    · exact absurd (hu.symm.trans hd) unheld_ne_replace
  · rintro ⟨c, hc, hne, hall⟩
    refine ⟨c, hc, ?_⟩
    rcases p.decide_cases c with ⟨a, ha, hv⟩ | ⟨hnil, -⟩
    · rw [hv, hall a ha]
    · exact absurd hnil hne

section
variable (h : archives.Perm p.existing)
include h

theorem alwaysReplaces_reordered {path : String} :
    (p.reordered archives).AlwaysReplaces c path ↔ p.AlwaysReplaces c path := by
  have hnil : (p.reordered archives).holders c = [] ↔ p.holders c = [] := by
    simp only [List.eq_nil_iff_forall_not_mem, mem_holders_reordered h]
  unfold AlwaysReplaces
  simp only [ne_eq, hnil, mem_holders_reordered h]
  rfl

theorem Insists.reordered (hi : p.Insists catalog) : (p.reordered archives).Insists catalog :=
  fun c hc a ha hv => by
    obtain ⟨c', hc', hr⟩ := hi c hc a ((mem_holders_reordered h).mp ha) hv
    exact ⟨c', hc', (alwaysReplaces_reordered h).mpr hr⟩

theorem decide_skip_reordered (ha : p.Agrees c) :
    (p.reordered archives).decide c = .skip ↔ p.decide c = .skip := by
  rcases (p.reordered archives).decide_cases c with ⟨a, hmem, hv⟩ | ⟨hnil, hu⟩
  · rw [mem_holders_reordered h] at hmem
    rcases p.decide_cases c with ⟨b, hmem', hv'⟩ | ⟨hnil, -⟩
    · rw [hv, hv']
      exact ⟨ha a hmem b hmem', ha b hmem' a hmem⟩
    · rw [hnil] at hmem
      cases hmem
  · rcases p.decide_cases c with ⟨b, hmem, -⟩ | ⟨-, hu'⟩
    · rw [← mem_holders_reordered h, hnil] at hmem
      cases hmem
    · rw [hu, hu', unheld_reordered h]

end

/-- All orders of the archives lead to the same downloads and the same removals just if the archives
that may hold a chapter agree on whether it is left out, and what they may have superseded is
superseded in any order. -/
theorem plan_perm_iff (p : Planner) (catalog : List Chapter) :
    (∀ archives : List Archive, archives.Perm p.existing →
      ((p.reordered archives).plan catalog).toDownload = (p.plan catalog).toDownload ∧
      ∀ path, path ∈ ((p.reordered archives).plan catalog).toRemove ↔
        path ∈ (p.plan catalog).toRemove) ↔
      (∀ c ∈ catalog, p.Agrees c) ∧ p.Insists catalog := by
  constructor
  · intro hall
    have taken (c : Chapter) (hc : c ∈ catalog) {archives : List Archive}
        (hperm : archives.Perm p.existing) :
        (p.reordered archives).decide c = .skip ↔ c ∉ (p.plan catalog).toDownload := by
      rw [← (hall archives hperm).1, toDownload_plan]
      simp [hc]
    have agree : ∀ c ∈ catalog, p.Agrees c := fun c hc a ha b hb hskip => by
      obtain ⟨_, hpermA, hfirstA⟩ := exists_order_first ha
      obtain ⟨_, hpermB, hfirstB⟩ := exists_order_first hb
      rw [← hfirstB, taken c hc hpermB, ← taken c hc hpermA, hfirstA, hskip]
    refine ⟨agree, fun c hc a ha hreplace => ?_⟩
    obtain ⟨_, hpermA, hfirst⟩ := exists_order_first ha
    obtain ⟨_, hperm, hlast⟩ := exists_order_last a.path agree
    have hremoved := mem_toRemove.mpr ⟨c, hc, hfirst.trans hreplace⟩
    rw [(hall _ hpermA).2, ← (hall _ hperm).2, mem_toRemove] at hremoved
    obtain ⟨c', hc', hd⟩ := hremoved
    exact ⟨c', hc', hlast c' hc' hd⟩
  · rintro ⟨hagree, hinsist⟩ archives hperm
    constructor
    · rw [toDownload_plan, toDownload_plan]
      refine List.filter_congr fun c hc => ?_
      rw [Bool.eq_iff_iff, bne_iff_ne, bne_iff_ne]
      exact not_congr (decide_skip_reordered hperm (hagree c hc))
    · intro path
      rw [mem_toRemove_iff hinsist, mem_toRemove_iff (hinsist.reordered hperm)]
      simp only [alwaysReplaces_reordered hperm]

/-- Two chapters that have come into volumes. -/
def moved : List Chapter :=
  [⟨"a", "1", "4", ""⟩, ⟨"b", "2", "5", ""⟩]

/-- Of the first chapter there is an archive from before and one from after, of the second one from
before. -/
def twoEditions (volumes : Archive → Option String) : Planner where
  naming := (Naming.ofConfig { downloadDir := "lib" } "T").withCatalog moved
  existing :=
    [⟨"Old Ch. 0004.cbz", "lib/T/Old Ch. 0004.cbz", "", "4"⟩,
      ⟨"Old Vol. 1 Ch. 0004.cbz", "lib/T/Old Vol. 1 Ch. 0004.cbz", "1", "4"⟩,
      ⟨"Old Ch. 0005.cbz", "lib/T/Old Ch. 0005.cbz", "", "5"⟩]
  embeddedVolume := volumes

/-- The volumes recorded in the archives. -/
def editionVolume (a : Archive) : Option String :=
  if a.path = "lib/T/Old Vol. 1 Ch. 0004.cbz" then some "1" else some ""

/-- The volumes that can be read if the first archive is damaged. -/
def legibleVolume (a : Archive) : Option String :=
  if a.path = "lib/T/Old Ch. 0004.cbz" then none else editionVolume a

/-- With the older archive damaged, both orders leave out the first chapter, and both supersede the
archive of the second. -/
theorem plan_perm_iff_damaged :
    let p := twoEditions legibleVolume
    let q := p.reordered p.existing.reverse
    (∀ c ∈ moved, p.Agrees c) ∧ p.Insists moved ∧
      (q.plan moved).toDownload = (p.plan moved).toDownload ∧
      "lib/T/Old Ch. 0005.cbz" ∈ (q.plan moved).toRemove := by
  intro p q
  have agree : ∀ c ∈ moved, p.Agrees c := by decide +kernel
  have insist : p.Insists moved := by decide +kernel
  have same := (plan_perm_iff p moved).mpr ⟨agree, insist⟩ _ (List.reverse_perm p.existing)
  exact ⟨agree, insist, same.1, (same.2 _).mpr (by decide +kernel)⟩

/-- The older archive of the first chapter has it downloaded anew if it comes first, and the newer one
does not. -/
theorem twoEditions_order_matters :
    let p := twoEditions editionVolume
    let q := p.reordered p.existing.reverse
    q.existing.Perm p.existing ∧
      (p.plan moved).toDownload.map Chapter.id = ["a", "b"] ∧
      (p.plan moved).toRemove = ["lib/T/Old Ch. 0004.cbz", "lib/T/Old Ch. 0005.cbz"] ∧
      (q.plan moved).toDownload.map Chapter.id = ["b"] ∧
      (q.plan moved).toRemove = ["lib/T/Old Ch. 0005.cbz"] := by
  decide +kernel

end Longbox.Planner
