import XrceDds.Lib.CutAt

/-!
# The references of CED entities

A reference names the entity of a topic: its name with `__t`, `__dw` or `__dr` behind it.  The
middleware cuts a reference at the first occurrence of the suffix, so a name that contains the
suffix of its own kind comes back shorter.  A topic and a writer, or a topic and a reader, are
given the same name exactly when the name that was asked for contains neither of their suffixes.
-/

namespace XrceDds

open CutAt

/-- The suffix of the references of topics. -/
def topicSuffix : List Char := ['_', '_', 't']

/-- The suffix of the references of datawriters. -/
def datawriterSuffix : List Char := ['_', '_', 'd', 'w']

/-- The suffix of the references of datareaders. -/
def datareaderSuffix : List Char := ['_', '_', 'd', 'r']

/-- `ref.substr(0, ref.find(suffix))`. -/
def removeSuffix (suffix : List Char) (ref : String) : String :=
  String.ofList (cutAt suffix ref.toList)

/-- `remove_suffix_form_topic_ref`. -/
def removeSuffixFormTopicRef (ref : String) : String := removeSuffix topicSuffix ref

/-- `remove_suffix_form_datawriter_ref`. -/
def removeSuffixFormDatawriterRef (ref : String) : String := removeSuffix datawriterSuffix ref

/-- `remove_suffix_form_datareader_ref`. -/
def removeSuffixFormDatareaderRef (ref : String) : String := removeSuffix datareaderSuffix ref

/-- A name contains a suffix. -/
def Contains (suffix : List Char) (name : String) : Prop := suffix <:+: name.toList

instance (suffix : List Char) (name : String) : Decidable (Contains suffix name) := by
  unfold Contains; infer_instance

/-- The names of a writer's and of a reader's topic that the suffixes do not disturb. -/
def CleanNames (n₁ n₂ : String) : Prop :=
  ¬ Contains topicSuffix n₁ ∧ ¬ Contains datawriterSuffix n₁ ∧
    ¬ Contains topicSuffix n₂ ∧ ¬ Contains datareaderSuffix n₂

/-! ## Where a reference is cut -/

/-- A suffix does not overlap with itself: behind its two underscores comes something else. -/
lemma suffix_self {suffix : List Char}
    (hsuffix : suffix ∈ [topicSuffix, datawriterSuffix, datareaderSuffix]) (x : Char)
    (xs : List Char) (h : suffix <+: x :: xs ++ suffix) : suffix <+: x :: xs := by
  simp only [List.mem_cons, List.not_mem_nil, or_false] at hsuffix
  rcases hsuffix with rfl | rfl | rfl
  all_goals
    rcases xs with _ | ⟨y, _ | ⟨z, _ | ⟨v, xs⟩⟩⟩
    all_goals
      simp only [topicSuffix, datawriterSuffix, datareaderSuffix, List.cons_append,
        List.nil_append, List.cons_prefix_cons, List.nil_prefix] at h ⊢
      first | exact h | simp at h

/-- The reference that is made of a name is cut where the name is. -/
lemma removeSuffix_append {suffix : List Char}
    (hsuffix : suffix ∈ [topicSuffix, datawriterSuffix, datareaderSuffix]) (name : String) :
    removeSuffix suffix (name ++ String.ofList suffix) =
      String.ofList (cutAt suffix name.toList) := by
  have hpattern : suffix ≠ [] := by
    rintro rfl
    exact absurd hsuffix (by decide)
  unfold removeSuffix
  rw [String.toList_append, String.toList_ofList,
    cutAt_append_self (suffix_self hsuffix) hpattern]

/-! ## When the names agree -/

/-- A proper beginning of the suffix of topics is one underscore or two. -/
lemma eq_of_prefix_topicSuffix {s : List Char} (hs : s ≠ []) (h : s <+: topicSuffix)
    (hne : s ≠ topicSuffix) : s = ['_'] ∨ s = ['_', '_'] := by
  have hle := h.length_le
  have heq := List.prefix_iff_eq_take.mp h
  have hlen : s.length ≠ 0 := fun h0 => hs (List.length_eq_zero_iff.mp h0)
  have hfull : s.length ≠ 3 := by
    intro h3
    rw [h3] at heq
    exact hne heq
  change s.length ≤ 3 at hle
  obtain h1 | h2 : s.length = 1 ∨ s.length = 2 := by omega
  · rw [h1] at heq
    exact .inl heq
  · rw [h2] at heq
    exact .inr heq

/-- What follows a common beginning of two lists, of which one goes on with the suffix of an
endpoint and the other with that of a topic, is one underscore or two. -/
lemma underscores_of_prefix {c s l m p : List Char} (hs : s ≠ []) (hsl : c ++ s <+: l)
    (hsm : c ++ s <+: m) (hp : c ++ p <+: l) (htopic : c ++ topicSuffix <+: m)
    (hdiffer : ¬ topicSuffix <+: p) (hdiffer' : ¬ p <+: topicSuffix) :
    s = ['_'] ∨ s = ['_', '_'] := by
  have hsp := prefixes_comparable hsl hp
  rcases prefixes_comparable hsm htopic with hst | hts
  · refine eq_of_prefix_topicSuffix hs hst fun heq => ?_
    rw [heq] at hsp
    exact hsp.elim hdiffer hdiffer'
  · rcases hsp with hsp | hps
    · exact absurd (hts.trans hsp) hdiffer
    · exact ((List.prefix_or_prefix_of_prefix hts hps).elim hdiffer hdiffer').elim

/-- A name that is longer by underscores, and cut there by the suffix of a topic, does not go on
with the suffix of an endpoint. -/
lemma not_cut_behind {c b l m p : List Char} (hp : p ∈ [datawriterSuffix, datareaderSuffix])
    (hbl : b <+: l) (hbm : b <+: m) (hcb : c <+: b) (hne : c ≠ b) (hendpoint : c ++ p <+: l)
    (htopic : c ++ topicSuffix <+: m) (hcut : b ≠ l → b ++ topicSuffix <+: l) : False := by
  obtain ⟨s, rfl⟩ := hcb
  have hs : s ≠ [] := fun heq => hne (by rw [heq, List.append_nil])
  simp only [List.mem_cons, List.not_mem_nil, or_false] at hp
  have hlength := hendpoint.length_le
  have hdiffer : ¬ topicSuffix <+: p ∧ ¬ p <+: topicSuffix ∧ p.length = 4 := by
    rcases hp with rfl | rfl <;> decide
  have hunderscores := underscores_of_prefix hs hbl hbm hendpoint htopic hdiffer.1 hdiffer.2.1
  have hshort : c ++ s ≠ l := by
    rintro rfl
    rw [List.length_append, List.length_append, hdiffer.2.2] at hlength
    rcases hunderscores with rfl | rfl <;> simp at hlength
  have hbehind := hcut hshort
  rw [List.append_assoc] at hbehind
  have hboth := prefixes_comparable hbehind hendpoint
  rcases hp with rfl | rfl <;> rcases hunderscores with rfl | rfl <;> revert hboth <;> decide

/-- The topics that are cut from two names cannot stand to the writer and the reader of these
names crosswise. -/
lemma cutAt_not_crosswise {l m : List Char}
    (hwriter : cutAt datawriterSuffix l = cutAt topicSuffix m)
    (hreader : cutAt datareaderSuffix m = cutAt topicSuffix l) :
    cutAt datawriterSuffix l = cutAt topicSuffix l := by
  have hal := prefix_cutAt datawriterSuffix l
  have hbl := prefix_cutAt topicSuffix l
  have ham := prefix_cutAt topicSuffix m
  have hbm := prefix_cutAt datareaderSuffix m
  rw [hreader] at hbm
  rw [← hwriter] at ham
  by_contra hne
  rcases List.prefix_or_prefix_of_prefix hal hbl with hab | hba
  · have hlt : (cutAt datawriterSuffix l).length < (cutAt topicSuffix l).length :=
      Nat.lt_of_le_of_ne hab.length_le fun heq => hne (hab.eq_of_length heq)
    have hcutl : cutAt datawriterSuffix l ≠ l := fun heq => by
      have := hbl.length_le
      rw [heq] at hlt
      omega
    have hcutm : cutAt topicSuffix m ≠ m := fun heq => by
      have := hbm.length_le
      rw [hwriter, heq] at hlt
      omega
    have htopic := prefix_of_cutAt_ne hcutm
    rw [← hwriter] at htopic
    exact not_cut_behind (by decide) hbl hbm hab hne (prefix_of_cutAt_ne hcutl) htopic
      prefix_of_cutAt_ne
  · have hlt : (cutAt topicSuffix l).length < (cutAt datawriterSuffix l).length :=
      Nat.lt_of_le_of_ne hba.length_le fun heq => hne (hba.eq_of_length heq).symm
    have hcutl : cutAt topicSuffix l ≠ l := fun heq => by
      have := hal.length_le
      rw [heq] at hlt
      omega
    have hcutm : cutAt datareaderSuffix m ≠ m := fun heq => by
      have := ham.length_le
      rw [← hreader, heq] at hlt
      omega
    have hendpoint := prefix_of_cutAt_ne hcutm
    rw [hreader] at hendpoint
    refine not_cut_behind (by decide) ham hal hba (Ne.symm hne) hendpoint
      (prefix_of_cutAt_ne hcutl) fun hbehind => ?_
    rw [hwriter] at hbehind ⊢
    exact prefix_of_cutAt_ne hbehind

/-- A name is cut at the same place for a topic and for an endpoint exactly when it contains
neither suffix, and is then not cut. -/
lemma cutAt_endpoint_eq_iff {p : List Char} (hp : p ∈ [datawriterSuffix, datareaderSuffix])
    (name : String) :
    cutAt p name.toList = cutAt topicSuffix name.toList ↔
      ¬ Contains topicSuffix name ∧ ¬ Contains p name := by
  simp only [List.mem_cons, List.not_mem_nil, or_false] at hp
  have hdiffer : ¬ topicSuffix <+: p ∧ ¬ p <+: topicSuffix ∧ p ≠ [] := by
    rcases hp with rfl | rfl <;> decide
  have htopic : cutAt topicSuffix name.toList = name.toList ↔ ¬ Contains topicSuffix name :=
    cutAt_eq_self_iff (by decide)
  have hendpoint : cutAt p name.toList = name.toList ↔ ¬ Contains p name :=
    cutAt_eq_self_iff hdiffer.2.2
  rw [← htopic, ← hendpoint]
  constructor
  · intro heq
    have huncut := cutAt_eq_cutAt hdiffer.2.1 hdiffer.1 heq
    exact ⟨heq.symm.trans huncut, huncut⟩
  · rintro ⟨ht, he⟩
    rw [ht, he]

/-- The names that the references of two names are cut to.  For clean names only, the writer's and
the reader's are names of the topics, and the same exactly for the same name. -/
theorem cleanNames_iff (n₁ n₂ : String) :
    CleanNames n₁ n₂ ↔
      (cutAt datawriterSuffix n₁.toList = cutAt topicSuffix n₁.toList ∨
        cutAt datawriterSuffix n₁.toList = cutAt topicSuffix n₂.toList) ∧
      (cutAt datareaderSuffix n₂.toList = cutAt topicSuffix n₁.toList ∨
        cutAt datareaderSuffix n₂.toList = cutAt topicSuffix n₂.toList) ∧
      (cutAt datawriterSuffix n₁.toList = cutAt datareaderSuffix n₂.toList ↔ n₁ = n₂) := by
  have hwriter := cutAt_endpoint_eq_iff (p := datawriterSuffix) (by decide) n₁
  have hreader := cutAt_endpoint_eq_iff (p := datareaderSuffix) (by decide) n₂
  have hclean : CleanNames n₁ n₂ ↔
      cutAt datawriterSuffix n₁.toList = cutAt topicSuffix n₁.toList ∧
        cutAt datareaderSuffix n₂.toList = cutAt topicSuffix n₂.toList := by
    rw [hwriter, hreader, and_assoc]
    rfl
  rw [hclean]
  constructor
  · rintro ⟨hw, hr⟩
    have hw' := hwriter.mp hw
    have hr' := hreader.mp hr
    have h₁ : cutAt datawriterSuffix n₁.toList = n₁.toList :=
      (cutAt_eq_self_iff (by decide)).mpr hw'.2
    have h₂ : cutAt datareaderSuffix n₂.toList = n₂.toList :=
      (cutAt_eq_self_iff (by decide)).mpr hr'.2
    exact ⟨.inl hw, .inr hr, by rw [h₁, h₂, String.toList_inj]⟩
  · rintro ⟨hw, hr, hiff⟩
    by_cases heq : n₁ = n₂
    · subst heq
      exact ⟨hw.elim id id, hr.elim id id⟩
    · have hne := fun h => heq (hiff.mp h)
      rcases hw with hw | hw
      · rcases hr with hr | hr
        · exact absurd (hw.trans hr.symm) hne
        · exact ⟨hw, hr⟩
      · rcases hr with hr | hr
        · exact absurd ((cutAt_not_crosswise hw hr).trans hr.symm) hne
        · exact absurd (hw.trans hr.symm) hne

end XrceDds
