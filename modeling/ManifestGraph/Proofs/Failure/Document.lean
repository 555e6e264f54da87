/-
  Error documents. The errors that a document gives are `Documented`: their texts have no lone halves,
  their status is a number of few digits, and what else is known of them is settled (`documented_of_read`).
  Such errors are written and read again without loss (`ofDocument_write`).
-/
import ManifestGraph.Failure.Document
import ManifestGraph.Proofs.Json.Model

namespace ManifestGraph.CatalogError

open Json (Legible LegibleMembers Dialect strict)

variable {e : CatalogError} {errors : List CatalogError} {v : Data} {n : Nat} {bs : Bytes}

/-- An error that a document can give: its further information nests in at most some levels. -/
structure Documented (n : Nat) (e : CatalogError) : Prop where
  family : e.family = .plain
  detail : e.detail.isScalar = true
  title : e.title.isScalar = true
  code : e.code.isScalar = true
  id : e.id.isScalar = true
  status : e.status.natAbs < 10 ^ Text.maxNumeralDigits
  info : Legible strict n (.record e.info)
  settled : (Data.record e.info).settled = .record e.info

/-! ## What a document gives -/

/-- A status that is taken over has few digits. -/
theorem natAbs_statusOf_lt (h : Legible strict n v) :
    (statusOf v).natAbs < 10 ^ Text.maxNumeralDigits := by
  have hpos : 0 < 10 ^ Text.maxNumeralDigits := Nat.pow_pos (by decide)
  have hdigits : Text.maxNumeralDigits = Json.maxDigits := rfl
  cases h with
  | int h => rw [hdigits]; exact h
  | bool _ b =>
    cases b with
    | false => exact hpos
    | true => exact Nat.one_lt_pow (by decide) (by decide)
  | @float _ x h =>
    cases x with
    | finite negative m k => exact Binary64.natAbs_truncate_lt h (by decide)
    | _ => exact hpos
  | @text _ t h =>
    show (t.toInt?.getD 0).natAbs < _
    cases hread : t.toInt? with
    | none => exact hpos
    | some k => exact Text.natAbs_lt_of_toInt? hread
  | _ => exact hpos

/-- Free members fit as they are, settled. -/
theorem fitMapping_fitAny (members : Members) :
    Data.fitMapping Data.fitAny (.record members) =
      .ok (lastOfEach (members.map fun m => (m.1, m.2.settled))) := by
  have hentries : Fit.entries Data.fitAny members = .ok (members.map fun m => (m.1, m.2.settled)) := by
    rw [Fit.entries_eq_ok, List.forall₂_map_right_iff]
    exact List.forall₂_same.mpr fun m _ => ⟨rfl, rfl⟩
  rw [Data.fitMapping, hentries]
  rfl

theorem info_of_fit {info : Option Members} (h : Legible strict n v)
    (hfit : Data.fitOption (Data.fitMapping Data.fitAny) v = .ok info) :
    Legible strict n (.record (info.getD [])) ∧
      (Data.record (info.getD [])).settled = .record (info.getD []) := by
  have hnone : Legible strict n (.record []) ∧ (Data.record []).settled = .record [] :=
    ⟨.emptyRecord fun hc => (nomatch hc), rfl⟩
  cases v with
  | null => cases hfit; exact hnone
  | record members =>
    change (Data.fitMapping Data.fitAny (.record members)).map some = .ok info at hfit
    rw [fitMapping_fitAny] at hfit
    cases hfit
    rw [Option.getD_some, ← Data.settled_record]
    exact ⟨h.settled, Data.settled_settled _⟩
  | _ => cases hfit

theorem documented_of_fit (h : Legible strict (n + 1) v) (hfit : CatalogError.fit v = .ok e) :
    Documented n e := by
  cases v with
  | record members =>
    have hmembers : ∀ m ∈ lastOfEach members, Legible strict n m.2 := by
      intro m hm
      cases h with
      | emptyRecord => cases hm
      | record _ hall => exact hall m (mem_of_mem_lastOfEach hm)
    have htext : ∀ {t : Text}, (t = [] ∨ ∃ m ∈ lastOfEach members, Data.fitText m.2 = .ok t) →
        t.isScalar = true := by
      rintro t (rfl | ⟨m, hm, ht⟩)
      · rfl
      · exact yields_fitText _ m.2 t (hmembers m hm) ht
    obtain ⟨f₅, info, h₅, hinfo, rfl⟩ := Fit.exists_of_seq hfit
    obtain ⟨f₄, detail, h₄, hdetail, rfl⟩ := Fit.exists_of_seq h₅
    obtain ⟨f₃, title, h₃, htitle, rfl⟩ := Fit.exists_of_seq h₄
    obtain ⟨f₂, code, h₂, hcode, rfl⟩ := Fit.exists_of_seq h₃
    obtain ⟨f₁, status, h₁, hstatus, rfl⟩ := Fit.exists_of_seq h₂
    obtain ⟨id, hid, rfl⟩ := Fit.exists_of_map h₁
    have hinfo' : Legible strict n (.record (info.getD [])) ∧
        (Data.record (info.getD [])).settled = .record (info.getD []) := by
      rcases Members.exists_of_withDefault hinfo with rfl | ⟨m, hm, hm'⟩
      · exact ⟨.emptyRecord fun hc => (nomatch hc), rfl⟩
      · exact info_of_fit (hmembers m hm) hm'
    have hstatus' : status.natAbs < 10 ^ Text.maxNumeralDigits := by
      rcases Members.exists_of_withDefault hstatus with rfl | ⟨m, hm, hm'⟩
      · exact Nat.pow_pos (by decide)
      · cases hm'
        exact natAbs_statusOf_lt (hmembers m hm)
    exact {
      family := rfl
      detail := htext (Members.exists_of_withDefault hdetail)
      title := htext (Members.exists_of_withDefault htitle)
      code := htext (Members.exists_of_withDefault hcode)
      id := htext (Members.exists_of_withDefault hid)
      status := hstatus'
      info := hinfo'.1
      settled := hinfo'.2 }
  | _ => cases hfit

/-- The errors of a document are documented, and there is at least one. -/
theorem documented_of_fitDocument (h : Legible strict (n + 3) v)
    (hfit : fitDocument v = .ok errors) : errors ≠ [] ∧ ∀ e ∈ errors, Documented n e := by
  cases v with
  | record members =>
    obtain ⟨m, hm, hm'⟩ := Members.exists_of_required hfit
    have hlist : Legible strict (n + 2) m.2 := by
      cases h with
      | emptyRecord => cases hm
      | record _ hall => exact hall m (mem_of_mem_lastOfEach hm)
    split at hm'
    next => cases hm'
    next fitted hne =>
      refine ⟨fun hnil => hne (hnil ▸ hm'), ?_⟩
      cases hitems : m.2 with
      | list items =>
        rw [hitems] at hlist hm'
        have hall : ∀ d ∈ items, Legible strict (n + 1) d := by
          cases hlist with
          | emptyList => exact List.forall_mem_nil _
          | list hall => exact hall
        intro e he
        obtain ⟨d, hd, hfit⟩ := Fit.exists_of_items hm' he
        exact documented_of_fit (hall d hd) hfit
      | _ => rw [hitems] at hm'; cases hm'
  | _ => cases hfit

/-- The levels that a document leaves to what else is known of its errors. -/
def infoDepth : Nat := strict.maxDepth - 3

theorem documented_of_read (h : ofDocument bs = .ok errors) :
    errors ≠ [] ∧ ∀ e ∈ errors, Documented infoDepth e := by
  unfold ofDocument at h
  cases hread : Json.readStrict bs with
  | none => rw [hread] at h; cases h
  | some d =>
    rw [hread] at h
    dsimp only at h
    split at h
    next => cases h
    split at h
    next errors' hfit =>
      cases h
      exact documented_of_fitDocument (Json.legible_of_readStrict hread) hfit
    next => cases h

/-! ## What is written and read again -/

theorem legible_textMember {name t : Text} (hname : name.isScalar = true) (ht : t.isScalar = true) :
    LegibleMembers strict n (textMember name t) := by
  unfold textMember
  split
  next => exact .nil
  next => exact .cons hname (.text (Or.inr ht)) .nil

/-- The status as a member: a numeral, unless it is zero. -/
def statusMember (status : Int) : Members :=
  if status = 0 then [] else [("status", .text (Text.ofInt status))]

theorem textMember_status (status : Int) :
    textMember "status" (if status = 0 then [] else Text.ofInt status) = statusMember status := by
  have hne : (Text.ofInt status).isEmpty = false := by
    cases status with
    | ofNat k => rw [List.isEmpty_eq_false_iff]; exact Text.ofNat_ne_nil k
    | negSucc k => rfl
  unfold statusMember
  split
  next => rfl
  next => rw [textMember, hne]; rfl

/-- A documented error is written without lone halves, in few levels. -/
theorem Documented.legible_toData (h : Documented n e) : Legible strict (n + 1) e.toData := by
  have hhead : LegibleMembers strict n [("title", .text e.title), ("detail", .text e.detail)] :=
    .cons (by decide) (.text (Or.inr h.title)) (.cons (by decide) (.text (Or.inr h.detail)) .nil)
  have hstatus : LegibleMembers strict n (statusMember e.status) := by
    unfold statusMember
    split
    next => exact .nil
    next =>
      have hscalar := (Json.plain_of_allBare (Json.allBare_ofInt e.status)).isScalar
      exact .cons (by decide) (.text (Or.inr hscalar)) .nil
  have hinfo : LegibleMembers strict n (if e.info.isEmpty then [] else [("meta", .record e.info)]) := by
    split
    next => exact .nil
    next => exact .cons (by decide) h.info .nil
  rw [toData, textMember_status]
  exact LegibleMembers.toRecord ((((hhead.append (legible_textMember (by decide) h.code)).append
    hstatus).append (legible_textMember (by decide) h.id)).append hinfo)

/-- A documented error that was written is read back. -/
theorem Documented.fit_toData (h : Documented n e) : CatalogError.fit e.toData = .ok e := by
  obtain ⟨family, detail, title, code, status, id, info⟩ := e
  obtain rfl : family = .plain := h.family
  have hstatus : statusOf (.text (Text.ofInt status)) = status := by
    rw [statusOf, Text.toInt?_ofInt h.status]
    rfl
  have hinfo : Data.fitMapping Data.fitAny (.record info) = .ok info := by
    have hsettled : Data.record (lastOfEach (info.map fun m => (m.1, m.2.settled))) = .record info := by
      rw [← Data.settled_record]
      exact h.settled
    rw [fitMapping_fitAny, Data.record.inj hsettled]
  have hfit : CatalogError.fit (toData ⟨.plain, detail, title, code, status, id, info⟩) =
      Fit.ok (fun info : Option Members => ⟨.plain, detail, title, code,
          if status = 0 then 0 else statusOf (.text (Text.ofInt status)), id, info.getD []⟩)
        <*> (if info.isEmpty then .ok none
          else ((Data.fitMapping Data.fitAny (.record info)).map some).under (.key "meta")) := by
    rw [toData, textMember_status]
    unfold statusMember
    dsimp only
    split
    next => cases code <;> cases id <;> cases info <;> rfl
    next => cases code <;> cases id <;> cases info <;> rfl
  rw [hfit, hinfo, hstatus]
  have hzero : (if status = 0 then 0 else status) = status := by
    split
    next heq => exact heq.symm
    next => rfl
  rw [hzero]
  cases info <;> rfl

/-- Errors as a document. -/
def document (errors : List CatalogError) : Data := .record [("errors", .list (errors.map toData))]

theorem legible_document (h : ∀ e ∈ errors, Documented n e) : Legible strict (n + 3) (document errors) :=
  LegibleMembers.toRecord (.cons (by decide) (.listMap fun e he => (h e he).legible_toData) .nil)

/-- Every member of an error is a text, but for what else is known of it. -/
theorem meta_or_text {m : Text × Data} {members : Members} (h : e.toData = .record members)
    (hm : m ∈ members) : m = (Text.ofString "meta", .record e.info) ∨ ∃ t, m.2 = .text t := by
  have htext : ∀ {name value : Text}, m ∈ textMember name value → ∃ t, m.2 = .text t := by
    intro name value hm
    unfold textMember at hm
    split at hm
    next => cases hm
    next => rw [List.mem_singleton.mp hm]; exact ⟨value, rfl⟩
  cases h
  rcases List.mem_append.mp hm with hm | hm
  · rcases List.mem_append.mp hm with hm | hm
    · rcases List.mem_append.mp hm with hm | hm
      · rcases List.mem_append.mp hm with hm | hm
        · rcases List.mem_cons.mp hm with rfl | hm
          · exact Or.inr ⟨_, rfl⟩
          · rw [List.mem_singleton.mp hm]; exact Or.inr ⟨_, rfl⟩
        · exact Or.inr (htext hm)
      · exact Or.inr (htext hm)
    · exact Or.inr (htext hm)
  · split at hm
    next => cases hm
    next => rw [List.mem_singleton.mp hm]; exact Or.inl rfl

/-- The names of an error's members are distinct. -/
theorem nodup_keys {members : Members} (h : e.toData = .record members) :
    (members.map Prod.fst).Nodup := by
  have htext : ∀ name value : Text, ((textMember name value).map Prod.fst).Sublist [name] := by
    intro name value
    unfold textMember
    split
    next => exact List.nil_sublist _
    next => exact List.Sublist.refl _
  have hinfo : ((if e.info.isEmpty then [] else [(Text.ofString "meta", Data.record e.info)]).map
      Prod.fst).Sublist [Text.ofString "meta"] := by
    split
    next => exact List.nil_sublist _
    next => exact List.Sublist.refl _
  have hall : ([["title", "detail"], ["code"], ["status"], ["id"], ["meta"]] :
      List (List Text)).flatten.Nodup := by decide
  cases h
  refine List.Sublist.nodup ?_ hall
  rw [List.map_append, List.map_append, List.map_append, List.map_append]
  exact ((((List.Sublist.refl _).append (htext _ _)).append (htext _ _)).append (htext _ _)).append hinfo

/-- A documented error is settled as it is written. -/
theorem Documented.settled_toData (h : Documented n e) : e.toData.settled = e.toData := by
  refine Data.settled_record_of_nodup (nodup_keys rfl) fun m hm => ?_
  rcases meta_or_text rfl hm with rfl | ⟨t, ht⟩
  · exact h.settled
  · rw [ht]; rfl

theorem settled_document (h : ∀ e ∈ errors, Documented n e) :
    (document errors).settled = document errors := by
  have hitems : (errors.map toData).map Data.settled = errors.map toData := by
    rw [List.map_map]
    exact List.map_congr_left fun e he => (h e he).settled_toData
  have hsettled : (document errors).settled =
      .record [("errors", (Data.list (errors.map toData)).settled)] := rfl
  rw [hsettled, Data.settled_list, hitems]
  rfl

/-- No status is written as a number, so none is infinite. -/
theorem hasInfiniteStatus_document (errors : List CatalogError) :
    hasInfiniteStatus (document errors) = false := by
  show ((errors.map toData).any fun item => ((item.get? "status").map isInfiniteStatus).getD false) = false
  rw [List.any_eq_false]
  intro item hitem
  obtain ⟨e, _, rfl⟩ := List.mem_map.mp hitem
  cases hstatus : e.toData.get? "status" with
  | none => exact Bool.false_ne_true
  | some v =>
    have hmem := mem_of_lookup hstatus
    rcases meta_or_text rfl (List.mem_reverse.mp hmem) with hmeta | ⟨t, rfl⟩
    · have hne : Text.ofString "status" ≠ Text.ofString "meta" := by decide
      exact absurd (congrArg Prod.fst hmeta) hne
    · exact Bool.false_ne_true

theorem fitDocument_document (hne : errors ≠ []) (h : ∀ e ∈ errors, Documented n e) :
    fitDocument (document errors) = .ok errors := by
  have hitems : Data.fitList CatalogError.fit (.list (errors.map toData)) = .ok errors := by
    rw [Data.fitList, Fit.items_map fun e he => (h e he).fit_toData, List.map_id']
  show Fit.under (.key "errors") _ = _
  dsimp only
  rw [hitems]
  cases errors with
  | nil => exact absurd rfl hne
  | cons e errors => rfl

/-- Documented errors that were written as a document are read back. -/
theorem ofDocument_write {s : Json.Style} (hs : s.Lays) (hplain : s.Plain) (hne : errors ≠ [])
    (h : ∀ e ∈ errors, Documented infoDepth e) :
    ofDocument (Json.writeBytes s (document errors)) = .ok errors := by
  have hread := Json.readStrict_writeBytes hs hplain (legible_document h)
  rw [ofDocument, hread]
  dsimp only
  rw [hasInfiniteStatus_document, fitDocument_document hne h]
  rfl

end ManifestGraph.CatalogError
