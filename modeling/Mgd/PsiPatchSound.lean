import Mgd.Lib.TomlBasic
import Mgd.PsiPatch

/-!
# The edit is right where the scanner sees what TOML sees

`scan_inside` follows the scanner through the table: the keys that are not found
yet get their values where the line of one is replaced or where the table ends.
Before and after the table nothing is changed.
-/

namespace Mgd.PsiPatch

open Mgd.Lib.Text Mgd.Lib.TomlLines Mgd.Lib.Toml Mgd.Config.Loading Mgd.Engine.Calibrate

/-! ## Documents with new values -/

section Edits

variable {V : Type} {P : Parser V} {values : Values} {v : PsiKey → V} {d d' : Doc V}

/-- The expression of a threshold. -/
def keyStmt (values : Values) (v : PsiKey → V) (k : PsiKey) : Stmt V :=
  ⟨[keyLine values k], .entry [k.text] (v k)⟩

/-- All but the keys in `ks`, and these. -/
structure Sets (v : PsiKey → V) (ks : List PsiKey) (d d' : Doc V) : Prop where
  keys : ∀ k ∈ ks, d' (keyLoc k) = some (.value (v k))
  others : ∀ loc, (∀ k ∈ ks, loc ≠ keyLoc k) → d' loc = d loc

theorem keyLoc_injective {k k' : PsiKey} (h : keyLoc k = keyLoc k') : k = k' := by
  apply text_injective
  injection h with _ hRest
  injection hRest with hName
  injection hName

theorem Sets.refl (v : PsiKey → V) (d : Doc V) : Sets v [] d d where
  keys _ hk := by cases hk
  others _ _ := rfl

/-- One more key. -/
theorem Sets.cons {k : PsiKey} {ks : List PsiKey} (hFresh : k ∉ ks)
    (h : Sets v ks (Function.update d (keyLoc k) (some (.value (v k)))) d') :
    Sets v (k :: ks) d d' where
  keys k' hk' := by
    cases List.mem_cons.mp hk' with
    | inr hLater => exact h.keys k' hLater
    | inl hHere =>
        have hOther : ∀ k' ∈ ks, keyLoc k ≠ keyLoc k' := by
          intro k' hk' hSame
          exact hFresh (keyLoc_injective hSame ▸ hk')
        rw [hHere, h.others (keyLoc k) hOther, Function.update_self]
  others loc hLoc := by
    rw [List.forall_mem_cons] at hLoc
    rw [h.others loc hLoc.2, Function.update_of_ne hLoc.1]

theorem linesOf_keyStmts (ks : List PsiKey) :
    linesOf (ks.map (keyStmt values v)) = ks.map (keyLine values) := by
  induction ks with
  | nil => rfl
  | cons k ks ih =>
      rw [List.map_cons, List.map_cons, linesOf_cons, ih]
      rfl

/-- **Keys may be added** at any place where TOML is in `[psi]`. -/
theorem add_keys (hv : ∀ k, readBack P (values k) = some (v k)) {ks : List PsiKey}
    (hDistinct : ks.Nodup) {zs ys : List (Stmt V)} (hCut : P.Cut zs ys d) (hNonempty : zs ≠ [])
    (hOpen : ∀ k ∈ ks, Open d (sectionFrom .root (meanings zs)) k) :
    ∃ d', P.Cut (zs ++ ks.map (keyStmt values v)) ys d' ∧ Sets v ks d d' := by
  induction ks generalizing zs d with
  | nil =>
      rw [List.map_nil, List.append_nil]
      exact ⟨d, hCut, Sets.refl v d⟩
  | cons k ks ih =>
      rw [List.forall_mem_cons] at hOpen
      obtain ⟨⟨hSection, hNone⟩, hOpen⟩ := hOpen
      rw [List.nodup_cons] at hDistinct
      have hAdded := hCut.add hNonempty (expression_keyLine P values k (hv k)) hSection
        (Option.isNone_iff_eq_none.mp hNone)
      have hSame := section_append_singleton zs (keyStmt values v k)
      have hOpen' : ∀ k' ∈ ks, Open (Function.update d (keyLoc k) (some (.value (v k))))
          (sectionFrom .root (meanings (zs ++ [keyStmt values v k]))) k' := by
        intro k' hk'
        obtain ⟨hSection', hNone'⟩ := hOpen k' hk'
        have hOther : keyLoc k' ≠ keyLoc k := by
          intro hEq
          exact hDistinct.1 (keyLoc_injective hEq ▸ hk')
        refine ⟨hSame.trans hSection', ?_⟩
        rw [Function.update_of_ne hOther]
        exact hNone'
      obtain ⟨d', hCut', hSets⟩ := ih hDistinct.2 hAdded (by simp) hOpen'
      rw [List.append_assoc] at hCut'
      exact ⟨d', hCut', hSets.cons hDistinct.1⟩

end Edits

/-! ## Outside of the table -/

section Outside

variable {V : Type} {d : Doc V} {st : Scan} {sec : Section}

theorem action_psi {line : List Char} (h : trim line = psiHeader) :
    action st line = .header true := by
  unfold action
  dsimp only
  rw [h, if_pos (by decide), decide_eq_true rfl]

theorem inPsi_of_replace {line : List Char} {k : PsiKey} (h : action st line = .replace k) :
    st.inPsi = true := by
  unfold action at h
  dsimp only at h
  split at h
  · cases h
  · split at h
    · next hIn => exact hIn.1
    · cases h

theorem missing_outside (h : st.inPsi = false) : st.missing = [] := by
  unfold Scan.missing
  rw [h]
  rfl

theorem hasPsi_append (xs ys : List (List Char)) : hasPsi (xs ++ ys) = (hasPsi xs || hasPsi ys) :=
  List.any_append

/-- No further line of an expression is `[psi]`. -/
theorem hasPsi_more {ls : List (List Char)} (h : MoreAgree st ls) : hasPsi ls = false := by
  induction ls generalizing st with
  | nil => rfl
  | cons line ls ih =>
      obtain ⟨hLine, hMore⟩ := h
      have hNot : trim line ≠ psiHeader := by
        intro hPsi
        rw [action_psi hPsi] at hLine
        cases hLine.1
      unfold hasPsi
      rw [List.any_cons, decide_eq_false hNot, Bool.false_or]
      exact ih hMore

/-- Further lines of an expression are pushed as they are. -/
theorem scan_more (values : Values) {ls : List (List Char)} (h : MoreAgree st ls)
    (rest : List (List Char)) :
    scan values st (ls ++ rest) = ls ++ scan values (ls.foldl Scan.next st) rest := by
  induction ls generalizing st with
  | nil => rfl
  | cons line ls ih =>
      obtain ⟨hLine, hMore⟩ := h
      have hPushed : pushed values st line = [line] := by
        cases hAction : action st line with
        | header isPsi =>
            rw [hAction] at hLine
            rw [pushed_of_header values hAction, hLine.2]
            rfl
        | replace k =>
            rw [hAction] at hLine
            exact hLine.elim
        | keep => exact pushed_of_keep values hAction
      rw [List.cons_append, scan, ih hMore, hPushed]
      rfl

/-- They leave the scanner where it is, or lead it out of a table that is done. -/
theorem foldl_next_more {ls : List (List Char)} (h : MoreAgree st ls) :
    ls.foldl Scan.next st = st ∨
      (st.missing = [] ∧ ls.foldl Scan.next st = { st with inPsi := false }) := by
  induction ls generalizing st with
  | nil => exact Or.inl rfl
  | cons line ls ih =>
      obtain ⟨hLine, hMore⟩ := h
      rw [List.foldl_cons]
      cases hAction : action st line with
      | header isPsi =>
          rw [hAction] at hLine
          have hNext := next_of_header hAction
          rw [hLine.1] at hNext
          right
          refine ⟨hLine.2, ?_⟩
          cases ih hMore with
          | inl hSame => rw [hSame, hNext]
          | inr hLeft => rw [hLeft.2, hNext]
      | replace k =>
          rw [hAction] at hLine
          exact hLine.elim
      | keep =>
          rw [next_of_keep hAction] at hMore ⊢
          exact ih hMore

/-- An expression is its first line and the further ones. -/
theorem scan_stmt (values : Values) {s : Stmt V} {line : List Char} {more : List (List Char)}
    (hLines : s.lines = line :: more) (hMore : MoreAgree (st.next line) more)
    (ys : List (Stmt V)) :
    scan values st (linesOf (s :: ys)) =
      pushed values st line ++ (more ++ scan values (s.lines.foldl Scan.next st) (linesOf ys)) := by
  rw [linesOf_cons, hLines, List.cons_append, scan, scan_more values hMore]
  rfl

theorem leave_outside (h : st.inPsi = false) : { st with inPsi := false } = st := by
  cases st
  cases h
  rfl

/-- Outside of the table only its header changes the state. -/
theorem next_outside (h : st.inPsi = false) {line : List Char}
    (hLine : action st line ≠ .header true) : st.next line = st := by
  cases hAction : action st line with
  | header isPsi =>
      cases isPsi with
      | true => exact absurd hAction hLine
      | false => rw [next_of_header hAction, leave_outside h]
  | replace k =>
      rw [inPsi_of_replace hAction] at h
      cases h
  | keep => exact next_of_keep hAction

theorem foldl_next_outside (h : st.inPsi = false) {line : List Char} {more : List (List Char)}
    (hLine : action st line ≠ .header true) (hMore : MoreAgree (st.next line) more) :
    (line :: more).foldl Scan.next st = st := by
  have hNext := next_outside h hLine
  rw [hNext] at hMore
  rw [List.foldl_cons, hNext]
  cases foldl_next_more hMore with
  | inl hSame => exact hSame
  | inr hLeft => rw [hLeft.2, leave_outside h]

theorem pushed_outside (values : Values) (h : st.inPsi = false) (line : List Char) :
    pushed values st line = [line] := by
  cases hAction : action st line with
  | header isPsi =>
      rw [pushed_of_header values hAction, missing_outside h]
      rfl
  | replace k =>
      rw [inPsi_of_replace hAction] at h
      cases h
  | keep => exact pushed_of_keep values hAction

/-- The first line of an expression that is not TOML's header. -/
theorem action_ne_psi {line : List Char} {more : List (List Char)} {m : Meaning V}
    (h : FirstAgrees d st sec m line more) (hOther : isPsiTable m = false) :
    action st line ≠ .header true := by
  intro hAction
  unfold FirstAgrees at h
  rw [hAction] at h
  have hTable := (h.1 rfl).2
  rw [hOther] at hTable
  cases hTable

/-- What the two see of an expression with lines. -/
theorem StmtAgrees.exists_line {s : Stmt V} (h : StmtAgrees d st sec s) (hLines : s.lines ≠ []) :
    ∃ line more, s.lines = line :: more ∧ FirstAgrees d st sec s.meaning line more ∧
      MoreAgree (st.next line) more := by
  unfold StmtAgrees at h
  cases hCons : s.lines with
  | nil => exact absurd hCons hLines
  | cons line more =>
      rw [hCons] at h
      exact ⟨line, more, rfl, h⟩

/-- **Outside of the table nothing is changed.** -/
theorem scan_outside (values : Values) {ys : List (Stmt V)} (hOut : st.inPsi = false)
    (hAgrees : Agrees d st sec ys) (hOther : ∀ m ∈ meanings ys, isPsiTable m = false) :
    scan values st (linesOf ys) = linesOf ys := by
  induction ys generalizing sec with
  | nil =>
      show st.missing.map _ = []
      rw [missing_outside hOut]
      rfl
  | cons s ys ih =>
      obtain ⟨hStmt, hRest⟩ := hAgrees
      rw [meanings_cons, List.forall_mem_cons] at hOther
      unfold StmtAgrees at hStmt
      cases hLines : s.lines with
      | nil =>
          rw [hLines] at hRest
          rw [linesOf_cons, hLines]
          exact ih hRest hOther.2
      | cons line more =>
          rw [hLines] at hStmt
          obtain ⟨hFirst, hMore⟩ := hStmt
          have hState := foldl_next_outside hOut (action_ne_psi hFirst hOther.1) hMore
          rw [← hLines] at hState
          rw [hState] at hRest
          rw [scan_stmt values hLines hMore, pushed_outside values hOut, hState,
            ih hRest hOther.2, linesOf_cons, hLines]
          rfl

end Outside

/-! ## Inside the table -/

section Inside

variable {V : Type} {P : Parser V} {values : Values} {v : PsiKey → V} {d dc d' : Doc V}
  {st : Scan} {zs ys : List (Stmt V)} {s : Stmt V} {line : List Char} {more : List (List Char)}

theorem meaning_of_isPsiTable {m : Meaning V} (h : isPsiTable m = true) :
    m = .table [psiName] := by
  cases m with
  | nothing => cases h
  | table path => rw [of_decide_eq_true h]
  | arrayTable path => cases h
  | entry path value => cases h

theorem meaning_of_isEntry {m : Meaning V} {k : PsiKey} (h : isEntry k m = true) :
    ∃ w, m = .entry [k.text] w := by
  cases m with
  | nothing => cases h
  | table path => cases h
  | arrayTable path => cases h
  | entry path value => exact ⟨value, by rw [of_decide_eq_true h]⟩

theorem mem_missing_iff (h : st.inPsi = true) {k : PsiKey} :
    k ∈ st.missing ↔ st.found k = false := by
  unfold Scan.missing
  rw [if_pos h, List.mem_filter, Bool.not_eq_true']
  constructor
  · exact And.right
  · intro hLost
    refine ⟨?_, hLost⟩
    cases k <;> simp

theorem nodup_missing (st : Scan) : st.missing.Nodup := by
  unfold Scan.missing
  split
  · exact List.Nodup.sublist List.filter_sublist (by decide)
  · exact List.nodup_nil

theorem found_mark (st : Scan) (k k' : PsiKey) :
    (st.mark k).found k' = (decide (k' = k) || st.found k') := by
  cases k <;> cases k' <;> rfl

def allKeys : List PsiKey := [.elevated, .fullCritical]

theorem mem_allKeys (k : PsiKey) : k ∈ allKeys := by
  cases k <;> simp [allKeys]

/-- The scanner is in the table: the keys it has found have their new values, the
others what the document had. -/
structure InTable (v : PsiKey → V) (d dc : Doc V) (st : Scan) : Prop where
  inPsi : st.inPsi = true
  lost : ∀ k, st.found k = false → dc (keyLoc k) = d (keyLoc k)
  found : ∀ k, st.found k = true → dc (keyLoc k) = some (.value (v k))

theorem InTable.open (h : InTable v d dc st) {sec : Section} :
    (∀ k ∈ st.missing, Open d sec k) → ∀ k ∈ st.missing, Open dc sec k := by
  intro hOpen k hk
  obtain ⟨hSection, hNone⟩ := hOpen k hk
  rw [← h.lost k ((mem_missing_iff h.inPsi).mp hk)] at hNone
  exact ⟨hSection, hNone⟩

/-- With the missing keys all are set. -/
theorem InTable.all (h : InTable v d dc st) (hSets : Sets v st.missing dc d') :
    Sets v allKeys dc d' where
  keys k _ := by
    by_cases hMissing : k ∈ st.missing
    · exact hSets.keys k hMissing
    · rw [hSets.others (keyLoc k)]
      · apply h.found
        rw [mem_missing_iff h.inPsi, Bool.not_eq_false] at hMissing
        exact hMissing
      · intro k' hk' hSame
        exact hMissing (keyLoc_injective hSame ▸ hk')
  others loc hLoc := hSets.others loc fun k _ => hLoc k (mem_allKeys k)

theorem InTable.mark (h : InTable v d dc st) (k : PsiKey) :
    InTable v d (Function.update dc (keyLoc k) (some (.value (v k)))) (st.mark k) where
  inPsi := by cases k <;> exact h.inPsi
  lost k' hk' := by
    rw [found_mark, Bool.or_eq_false_iff] at hk'
    have hOther : keyLoc k' ≠ keyLoc k := by
      intro hEq
      exact of_decide_eq_false hk'.1 (keyLoc_injective hEq)
    rw [Function.update_of_ne hOther]
    exact h.lost k' hk'.2
  found k' hk' := by
    by_cases hKey : k' = k
    · rw [hKey, Function.update_self]
    · have hOther : keyLoc k' ≠ keyLoc k := fun hEq => hKey (keyLoc_injective hEq)
      rw [found_mark, decide_eq_false hKey, Bool.false_or] at hk'
      rw [Function.update_of_ne hOther]
      exact h.found k' hk'

variable (P values v) in
/-- What the scanner makes of the rest is a document with both values. -/
def Yields (zs : List (Stmt V)) (st : Scan) (ys : List (Stmt V)) (dc : Doc V) : Prop :=
  ∃ ws d', linesOf ws = scan values st (linesOf ys) ∧ P.Cut (zs ++ ws) [] d' ∧
    Sets v allKeys dc d'

/-- An expression is pushed as it is. -/
theorem Yields.keep (hLines : s.lines = line :: more) (hMore : MoreAgree (st.next line) more)
    (hPushed : pushed values st line = [line])
    (h : Yields P values v (zs ++ [s]) (s.lines.foldl Scan.next st) ys dc) :
    Yields P values v zs st (s :: ys) dc := by
  obtain ⟨ws, d', hWs, hCut, hSets⟩ := h
  rw [List.append_assoc] at hCut
  refine ⟨s :: ws, d', ?_, hCut, hSets⟩
  rw [scan_stmt values hLines hMore, hPushed, ← hWs, linesOf_cons, hLines]
  rfl

/-- The table is done: the rest is pushed as it is. -/
theorem yields_outside (hCut : P.Cut zs ys dc) (hOut : st.inPsi = false) {sec : Section}
    (hAgrees : Agrees d st sec ys) (hOther : ∀ m ∈ meanings ys, isPsiTable m = false)
    (hSets : Sets v allKeys dc dc) : Yields P values v zs st ys dc := by
  refine ⟨ys, dc, (scan_outside values hOut hAgrees hOther).symm, ?_, hSets⟩
  apply Parser.Cut.append
  rw [List.append_nil]
  exact hCut

/-- The table ends here: the missing keys are added. -/
theorem yields_leave (hv : ∀ k, readBack P (values k) = some (v k)) (hIn : InTable v d dc st)
    (hCut : P.Cut zs ys dc) (hNonempty : zs ≠ [])
    (hOpen : ∀ k ∈ st.missing, Open d (sectionFrom .root (meanings zs)) k)
    (hScan : scan values st (linesOf ys) = st.missing.map (keyLine values) ++ linesOf ys) :
    Yields P values v zs st ys dc := by
  obtain ⟨d', hAdded, hSets⟩ := add_keys hv (nodup_missing st) hCut hNonempty (hIn.open hOpen)
  refine ⟨st.missing.map (keyStmt values v) ++ ys, d', ?_, ?_, hIn.all hSets⟩
  · rw [hScan, linesOf_append, linesOf_keyStmts]
  · rw [← List.append_assoc]
    apply Parser.Cut.append
    rw [List.append_nil]
    exact hAdded

/-- A line of one of the keys is replaced. -/
theorem yields_replace {k : PsiKey} (hLines : s.lines = [line])
    (hAction : action st line = .replace k)
    (h : Yields P values v (zs ++ [keyStmt values v k]) (st.mark k) ys
      (Function.update dc (keyLoc k) (some (.value (v k))))) :
    Yields P values v zs st (s :: ys) dc := by
  obtain ⟨ws, d', hWs, hCut, hSets⟩ := h
  rw [List.append_assoc] at hCut
  refine ⟨keyStmt values v k :: ws, d', ?_, hCut, hSets.keys, fun loc hLoc => ?_⟩
  · rw [scan_stmt values hLines trivial, pushed_of_replace values hAction, hLines,
      List.foldl_cons, next_of_replace hAction, linesOf_cons, hWs]
    rfl
  · rw [hSets.others loc hLoc, Function.update_of_ne (hLoc k (mem_allKeys k))]

/-- **Inside the table** the keys that are not found yet get their values: where
the line of one is replaced, or where the table ends. -/
theorem scan_inside (hv : ∀ k, readBack P (values k) = some (v k)) (hIn : InTable v d dc st)
    (hCut : P.Cut zs ys dc) (hNonempty : zs ≠ [])
    (hAgrees : Agrees d st (sectionFrom .root (meanings zs)) ys)
    (hOther : ∀ m ∈ meanings ys, isPsiTable m = false) : Yields P values v zs st ys dc := by
  induction ys generalizing zs st dc with
  | nil =>
      refine yields_leave hv hIn hCut hNonempty hAgrees ?_
      rw [linesOf_nil, List.append_nil]
      rfl
  | cons s ys ih =>
      obtain ⟨hStmt, hRest⟩ := hAgrees
      rw [meanings_cons, List.forall_mem_cons] at hOther
      obtain ⟨hHere, -⟩ := hCut.rest_of_ne_nil hNonempty
      obtain ⟨line, more, hLines, hFirst, hMore⟩ :=
        hStmt.exists_line (Parser.lines_ne_nil hHere)
      have hAgree := hFirst
      unfold FirstAgrees at hAgree
      rw [← section_append_singleton] at hRest
      cases hAction : action st line with
      | header isPsi =>
          rw [hAction] at hAgree
          have hNotPsi : isPsi = false := by
            cases isPsi with
            | false => rfl
            | true => exact absurd hAction (action_ne_psi hFirst hOther.1)
          have hNext := next_of_header hAction
          rw [hNotPsi] at hNext
          have hState : s.lines.foldl Scan.next st = { st with inPsi := false } := by
            rw [hLines, List.foldl_cons, hNext]
            rw [hNext] at hMore
            cases foldl_next_more hMore with
            | inl hSame => exact hSame
            | inr hLeft => exact hLeft.2
          refine yields_leave hv hIn hCut hNonempty hAgree.2 ?_
          rw [hState] at hRest
          rw [scan_stmt values hLines hMore, pushed_of_header values hAction, hState,
            scan_outside values rfl hRest hOther.2, linesOf_cons, hLines, List.append_assoc]
          rfl
      | replace k =>
          rw [hAction] at hAgree
          obtain ⟨hOne, hSection, hEntry⟩ := hAgree
          obtain ⟨w, hMeaning⟩ := meaning_of_isEntry hEntry
          rw [hOne] at hLines
          have hNext : s.lines.foldl Scan.next st = st.mark k := by
            rw [hLines, List.foldl_cons, List.foldl_nil, next_of_replace hAction]
          have hSections : sectionFrom .root (meanings (zs ++ [s])) =
              sectionFrom .root (meanings (zs ++ [keyStmt values v k])) := by
            rw [section_append_singleton, section_append_singleton, hMeaning]
            rfl
          rw [hNext, hSections] at hRest
          have hSet := hCut.set hNonempty hMeaning (expression_keyLine P values k (hv k))
            hSection
          exact yields_replace hLines hAction
            (ih (hIn.mark k) hSet (by simp) hRest hOther.2)
      | keep =>
          have hNext := next_of_keep hAction
          have hFold : s.lines.foldl Scan.next st = more.foldl Scan.next st := by
            rw [hLines, List.foldl_cons, hNext]
          refine Yields.keep hLines hMore (pushed_of_keep values hAction) ?_
          rw [hNext] at hMore
          cases foldl_next_more hMore with
          | inl hSame =>
              rw [hFold, hSame] at hRest ⊢
              exact ih hIn hCut.next (by simp) hRest hOther.2
          | inr hLeft =>
              rw [hFold, hLeft.2] at hRest ⊢
              have hDone : Sets v st.missing dc dc := by
                rw [hLeft.1]
                exact Sets.refl v dc
              exact yields_outside hCut.next rfl hRest hOther.2 (hIn.all hDone)

/-- Up to the header nothing is changed; the table follows. -/
theorem scan_start (hv : ∀ k, readBack P (values k) = some (v k)) (hCut : P.Cut zs ys d)
    (hAgrees : Agrees d .start (sectionFrom .root (meanings zs)) ys)
    (hPsi : hasPsi (linesOf ys) = true) : Yields P values v zs .start ys d := by
  induction ys generalizing zs with
  | nil => cases hPsi
  | cons s ys ih =>
      obtain ⟨hStmt, hRest⟩ := hAgrees
      obtain ⟨hHere, -⟩ := hCut.rest
      rw [← section_append_singleton] at hRest
      obtain ⟨line, more, hLines, hFirst, hMore⟩ :=
        hStmt.exists_line (Parser.lines_ne_nil hHere)
      refine Yields.keep hLines hMore (pushed_outside values rfl line) ?_
      by_cases hAction : action .start line = .header true
      · unfold FirstAgrees at hFirst
        rw [hAction] at hFirst
        obtain ⟨hOne, hTable⟩ := hFirst.1 rfl
        have hMeaning := meaning_of_isPsiTable hTable
        have hNext : s.lines.foldl Scan.next .start = { Scan.start with inPsi := true } := by
          rw [hLines, hOne, List.foldl_cons, List.foldl_nil, next_of_header hAction]
        have hOnce : ∀ m ∈ meanings ys, isPsiTable m = false := by
          intro m hm
          have hBuild := hCut.build
          rw [meanings_append, meanings_cons, hMeaning] at hBuild
          rw [← Bool.not_eq_true]
          intro hAgain
          exact P.header_once hBuild (meaning_of_isPsiTable hAgain ▸ hm)
        rw [hNext] at hRest ⊢
        refine scan_inside hv ⟨rfl, fun _ _ => rfl, fun k hk => ?_⟩ hCut.next (by simp) hRest
          hOnce
        cases k <;> cases hk
      · have hState := foldl_next_outside (show Scan.start.inPsi = false from rfl) hAction hMore
        rw [← hLines] at hState
        rw [hState] at hRest ⊢
        apply ih hCut.next hRest
        rw [linesOf_cons, hLines, hasPsi_append, Bool.or_eq_true] at hPsi
        refine hPsi.resolve_left ?_
        have hNot : trim line ≠ psiHeader := fun hHere => hAction (action_psi hHere)
        unfold hasPsi
        rw [List.any_cons, decide_eq_false hNot, Bool.false_or, Bool.not_eq_true]
        exact hasPsi_more hMore

end Inside

/-! ## The patched text -/

section Text

variable {V : Type} {P : Parser V} {values : Values} {v : PsiKey → V} {d d' : Doc V}
  {text : List Char} {stmts : List (Stmt V)}

theorem readBack_isSome {x : F64} (h : x ≠ .nan) : ∃ w, readBack P x = some w := by
  cases x with
  | nan => exact absurd rfl h
  | negInf => exact ⟨_, rfl⟩
  | finite q => exact ⟨_, rfl⟩
  | posInf => exact ⟨_, rfl⟩

theorem exists_readBack (hNumbers : ∀ k, values k ≠ .nan) :
    ∃ v : PsiKey → V, ∀ k, readBack P (values k) = some (v k) :=
  ⟨fun k => (readBack_isSome (P := P) (hNumbers k)).choose,
    fun k => (readBack_isSome (hNumbers k)).choose_spec⟩

theorem Sets.patched (hv : ∀ k, readBack P (values k) = some (v k)) (h : Sets v allKeys d d') :
    Patched P values d d' where
  written k := ⟨v k, hv k, h.keys k (mem_allKeys k)⟩
  others loc w hLoc := by rw [h.others loc fun k _ => hLoc k]

/-- The patched text is accepted, and right. -/
def Correct (P : Parser V) (text : List Char) (values : Values) (d : Doc V) : Prop :=
  ∃ d', P.parse (patchPsiBlock text values) = some d' ∧ Patched P values d d'

theorem Correct.numbers (h : Correct P text values d) (k : PsiKey) : values k ≠ .nan := by
  intro hNan
  obtain ⟨d', -, hPatched⟩ := h
  obtain ⟨w, hRead, -⟩ := hPatched.written k
  rw [hNan] at hRead
  cases hRead

/-- A table that is there is edited. -/
theorem sets_of_agrees (h : P.Reading text stmts d)
    (hv : ∀ k, readBack P (values k) = some (v k)) (hPsi : hasPsi (lines text) = true)
    (hAgrees : Agrees d .start .root stmts) :
    ∃ d', P.parse (patchPsiBlock text values) = some d' ∧ Sets v allKeys d d' := by
  rw [← h.lines] at hPsi
  obtain ⟨ws, d', hWs, hCut, hSets⟩ := scan_start hv h.cut hAgrees hPsi
  have hNonempty : scan values .start (linesOf stmts) ≠ [] := by
    cases hLines : linesOf stmts with
    | nil =>
        rw [hLines] at hPsi
        cases hPsi
    | cons line rest =>
        rw [scan, pushed_outside values rfl]
        simp
  have hText : patchPsiBlock text values = unlines (linesOf ws) := by
    unfold patchPsiBlock
    rw [h.lines] at hPsi
    rw [if_pos hPsi, ← h.lines, intercalate_append_break hNonempty, hWs]
  refine ⟨d', ?_, hSets⟩
  rw [hText]
  exact hCut.reading.parse

theorem correct_of_agrees (h : P.Reading text stmts d) (hNumbers : ∀ k, values k ≠ .nan)
    (hPsi : hasPsi (lines text) = true) (hAgrees : Agrees d .start .root stmts) :
    Correct P text values d := by
  obtain ⟨v, hv⟩ := @exists_readBack V P values hNumbers
  obtain ⟨d', hParse, hSets⟩ := sets_of_agrees h hv hPsi hAgrees
  exact ⟨d', hParse, hSets.patched hv⟩

/-! ### A new table -/

theorem breakless_keyLine (P : Parser V) (values : Values) (k : PsiKey) :
    '\n' ∉ keyLine values k ∧ '\r' ∉ keyLine values k := by
  by_cases hNan : values k = .nan
  · unfold keyLine
    rw [hNan]
    cases k <;> decide
  · obtain ⟨w, hw⟩ := readBack_isSome (P := P) hNan
    exact P.noBreak (expression_keyLine P values k hw) _ List.mem_cons_self

/-- The lines of the new table. -/
def tableLines (values : Values) : List (List Char) :=
  [[], psiHeader, keyLine values .elevated, keyLine values .fullCritical]

theorem lines_patched (h : P.Reading text stmts d) (hPsi : hasPsi (lines text) = false) :
    lines (patchPsiBlock text values) = linesOf stmts ++ tableLines values := by
  have hBreakless : ∀ line ∈ tableLines values, '\n' ∉ line ∧ '\r' ∉ line := by
    unfold tableLines
    simp only [List.forall_mem_cons, List.not_mem_nil, IsEmpty.forall_iff, implies_true, and_true]
    exact ⟨⟨by simp, by simp⟩, by decide, breakless_keyLine P values _,
      breakless_keyLine P values _⟩
  have hTable := lines_unlines hBreakless
  have hText : patchPsiBlock text values = text ++
      (if text.isEmpty || text.getLast? == some '\n' then [] else ['\n']) ++
        unlines (tableLines values) := by
    unfold patchPsiBlock
    exact if_neg (by rw [← Bool.not_eq_true] at hPsi; exact hPsi)
  rw [hText, h.lines]
  by_cases hEmpty : text = []
  · rw [hEmpty]
    exact hTable
  · by_cases hBreak : text.getLast? = some '\n'
    · rw [hBreak]
      simp only [BEq.rfl, Bool.or_true, if_true, List.append_nil]
      rw [lines_append_of_break hBreak, hTable]
    · have hNoCr : ∀ line ∈ lines text, '\r' ∉ line := by
        intro line hLine
        rw [← h.lines] at hLine
        exact (Parser.noBreak_linesOf h.reads line hLine).2
      rw [if_neg (by simp [hEmpty, hBreak]), List.append_assoc, List.singleton_append,
        lines_append_add_break hEmpty hBreak hNoCr, hTable]

/-- The expressions of the new table. -/
def tableStmts (values : Values) (v : PsiKey → V) : List (Stmt V) :=
  [⟨[[]], .nothing⟩, ⟨[psiHeader], .table [psiName]⟩, keyStmt values v .elevated,
    keyStmt values v .fullCritical]

theorem expression_psiHeader (P : Parser V) :
    P.expression false [psiHeader] = some (.table [psiName]) := by
  have hHeader : psiHeader = headerLine psiName := by decide
  rw [hHeader]
  exact P.header (by decide)

/-- Empty line and header, after the expressions of the text. -/
theorem build_header (h : P.Reading text stmts d)
    (hUntaken : Untaken psiName .root (meanings stmts)) :
    P.build (meanings (stmts ++ [⟨[[]], .nothing⟩, ⟨[psiHeader], .table [psiName]⟩])) =
      some (Function.update d [.name psiName] (some .table)) := by
  have hTable := (P.add_table h.build hUntaken).2
  rw [meanings_append]
  exact (P.build_nothing (meanings stmts) [.table [psiName]]).trans hTable

/-- The section of the new table. -/
theorem section_table (stmts : List (Stmt V)) :
    sectionFrom .root (meanings (stmts ++ [⟨[[]], .nothing⟩, ⟨[psiHeader], .table [psiName]⟩])) =
      .table [psiName] := by
  rw [meanings_append, sectionFrom_append]
  rfl

theorem keyLoc_ne_table (k : PsiKey) : keyLoc k ≠ [.name psiName] := by
  intro h
  cases k <;> cases h

/-- A table that is new is appended. -/
theorem sets_of_absent (h : P.Reading text stmts d)
    (hv : ∀ k, readBack P (values k) = some (v k)) (hPsi : hasPsi (lines text) = false)
    (hAbsent : Absent d stmts) :
    ∃ d', P.parse (patchPsiBlock text values) = some d' ∧
      Sets v allKeys (Function.update d [.name psiName] (some .table)) d' := by
  obtain ⟨hUntaken, hNone⟩ := hAbsent
  have hStart : P.Cut (stmts ++ [⟨[[]], .nothing⟩, ⟨[psiHeader], .table [psiName]⟩]) []
      (Function.update d [.name psiName] (some .table)) := by
    refine ⟨(reads_append stmts _).mpr ⟨h.reads, P.blank _, expression_psiHeader P, trivial⟩,
      trivial, ?_⟩
    rw [List.append_nil]
    exact build_header h hUntaken
  have hOpen : ∀ k ∈ allKeys, Open (Function.update d [.name psiName] (some .table))
      (sectionFrom .root (meanings (stmts ++ [⟨[[]], .nothing⟩,
        ⟨[psiHeader], .table [psiName]⟩]))) k := by
    intro k _
    refine ⟨section_table stmts, ?_⟩
    rw [Function.update_of_ne (keyLoc_ne_table k)]
    exact hNone k
  obtain ⟨d', hCut, hSets⟩ := add_keys hv (by decide) hStart (by simp) hOpen
  have hReading := hCut.reading
  refine ⟨d', (P.parse_eq_some_iff _ d').mpr ⟨_, hReading.reads, ?_, hReading.build⟩, hSets⟩
  rw [lines_patched h hPsi, linesOf_append, linesOf_append, linesOf_keyStmts, List.append_assoc]
  rfl

theorem correct_of_absent (h : P.Reading text stmts d) (hNumbers : ∀ k, values k ≠ .nan)
    (hPsi : hasPsi (lines text) = false) (hAbsent : Absent d stmts) :
    Correct P text values d := by
  obtain ⟨v, hv⟩ := @exists_readBack V P values hNumbers
  obtain ⟨d', hParse, hSets⟩ := sets_of_absent h hv hPsi hAbsent
  refine ⟨d', hParse, (hSets.patched hv).written, fun loc w hLoc => ?_⟩
  rw [hSets.others loc fun k _ => hLoc k]
  by_cases hTable : loc = [.name psiName]
  · rw [hTable, Function.update_self]
    refine iff_of_false (by simp) ?_
    exact (P.add_table h.build hAbsent.1).1 w
  · rw [Function.update_of_ne hTable]

def PsiKey.pick {α : Type} (elevated full : α) : PsiKey → α
  | .elevated => elevated
  | .fullCritical => full

/-- The patched text is read as the text and the new table. -/
theorem reading_patched {d' : Doc V} (h : P.Reading text stmts d)
    (hPsi : hasPsi (lines text) = false) (hParse : P.parse (patchPsiBlock text values) = some d') :
    ∃ v, P.build (meanings (stmts ++ tableStmts values v)) = some d' := by
  obtain ⟨all, hReads, hLines, hBuild⟩ := (P.parse_eq_some_iff _ d').mp hParse
  rw [lines_patched h hPsi] at hLines
  obtain ⟨rest, rfl⟩ := Parser.reads_prefix h.reads hReads hLines
  rw [linesOf_append, List.append_cancel_left_eq] at hLines
  obtain ⟨-, hRest⟩ := (reads_append stmts rest).mp hReads
  obtain ⟨afterBlank, rfl, hReads, hLines⟩ := Parser.reads_line hRest hLines (P.blank _)
  obtain ⟨afterHeader, rfl, hReads, hLines⟩ :=
    Parser.reads_line hReads hLines (expression_psiHeader P)
  have hKey : ∀ {k : PsiKey} {ys : List (Stmt V)} {more : List (List Char)},
      Reads P.expression false ys → linesOf ys = keyLine values k :: more →
        values k ≠ .nan := by
    intro k ys more hYs hLines hNan
    cases ys with
    | nil => cases hLines
    | cons s ys =>
        cases hFirst : s.lines with
        | nil => exact Parser.lines_ne_nil hYs.1 hFirst
        | cons line others =>
            rw [linesOf_cons, hFirst] at hLines
            have hHere := hYs.1
            rw [hFirst, (List.cons.inj hLines).1, expression_nan P hNan] at hHere
            cases hHere
  obtain ⟨e, he⟩ := readBack_isSome (P := P) (hKey hReads hLines)
  obtain ⟨afterElevated, rfl, hReads, hLines⟩ :=
    Parser.reads_line hReads hLines (expression_keyLine P values .elevated he)
  obtain ⟨f, hf⟩ := readBack_isSome (P := P) (hKey hReads hLines)
  obtain ⟨afterFull, rfl, hReads, hLines⟩ :=
    Parser.reads_line hReads hLines (expression_keyLine P values .fullCritical hf)
  have hEnd : afterFull = [] := by
    cases afterFull with
    | nil => rfl
    | cons s ys =>
        rw [linesOf_cons] at hLines
        exact absurd (List.append_eq_nil_iff.mp hLines).1 (Parser.lines_ne_nil hReads.1)
  rw [hEnd] at hBuild
  exact ⟨PsiKey.pick e f, hBuild⟩

/-- A table that is not new cannot be appended. -/
theorem absent_of_accepted {d' : Doc V} (h : P.Reading text stmts d)
    (hPsi : hasPsi (lines text) = false) (hParse : P.parse (patchPsiBlock text values) = some d') :
    Absent d stmts := by
  obtain ⟨v, hBuild⟩ := reading_patched h hPsi hParse
  have hUntaken : Untaken psiName .root (meanings stmts) := by
    have hAll := hBuild
    rw [meanings_append] at hAll
    have hSplit : meanings stmts ++ meanings (tableStmts values v) =
        meanings stmts ++ .nothing :: .table [psiName] ::
          meanings [keyStmt values v .elevated, keyStmt values v .fullCritical] := rfl
    rw [hSplit, P.build_nothing] at hAll
    exact P.table_untaken hAll
  have hHeader := build_header h hUntaken
  have hSection := section_table stmts
  generalize hStart : meanings (stmts ++ [⟨[[]], .nothing⟩, ⟨[psiHeader], .table [psiName]⟩]) =
    start at hHeader hSection
  have hMeanings : meanings (stmts ++ tableStmts values v) =
      start ++ [.entry [PsiKey.elevated.text] (v .elevated)] ++
        .entry [PsiKey.fullCritical.text] (v .fullCritical) :: [] := by
    rw [← hStart, meanings_append, meanings_append, List.append_assoc, List.append_assoc]
    rfl
  have hSectionKey : sectionFrom .root (start ++ [.entry [PsiKey.elevated.text] (v .elevated)]) =
      .table [psiName] := by
    rw [sectionFrom_append, hSection]
    rfl
  -- each of the two entries may be left out, so neither key was there
  rw [hMeanings] at hBuild
  obtain ⟨dFull, hWithout, hFullNone⟩ := P.drop_key hBuild hSectionKey
  rw [List.append_nil] at hWithout
  obtain ⟨dNeither, hNeither, hElevatedNone⟩ := P.drop_key hWithout hSection
  rw [List.append_nil, hHeader, Option.some_inj] at hNeither
  rw [← hNeither] at hElevatedNone
  have hElevated : (Function.update d [.name psiName] (some .table)) (keyLoc .elevated) = none :=
    hElevatedNone
  have hAdded := P.add_key (v .elevated) (by rw [List.append_nil]; exact hHeader) hSection
    hElevated
  rw [hWithout, Option.some_inj] at hAdded
  rw [hAdded] at hFullNone
  have hFull : Function.update (Function.update d [.name psiName] (some .table))
      (keyLoc .elevated) (some (.value (v .elevated))) (keyLoc .fullCritical) = none := hFullNone
  have hOther : keyLoc .fullCritical ≠ keyLoc .elevated := by
    intro hEq
    cases keyLoc_injective hEq
  rw [Function.update_of_ne hOther, Function.update_of_ne (keyLoc_ne_table _)] at hFull
  rw [Function.update_of_ne (keyLoc_ne_table _)] at hElevated
  refine ⟨hUntaken, fun k => ?_⟩
  cases k with
  | elevated => rw [hElevated]; rfl
  | fullCritical => rw [hFull]; rfl

/--
**When the edit of the configuration is right.**  Every text that TOML accepts
has a reading, and with any reading of it: if no value is NaN and TOML sees the
lines that matter as the scanner does, the patched text is accepted, has the two
thresholds rounded to one decimal, and keeps every other key.  No value may be
NaN in any case, and where no line is `[psi]` the table has to be new.
-/
theorem patchPsiBlock_correct (hParse : P.parse text = some d) (values : Values) :
    (∃ stmts, P.Reading text stmts d) ∧ ∀ stmts, P.Reading text stmts d →
      ((∀ k, values k ≠ .nan) ∧ SeesAlike d stmts → Correct P text values d) ∧
      (Correct P text values d →
        (∀ k, values k ≠ .nan) ∧ (hasPsi (lines text) = false → SeesAlike d stmts)) := by
  refine ⟨Parser.exists_reading hParse, fun stmts h => ?_⟩
  unfold SeesAlike
  rw [h.lines]
  constructor
  · intro hBoth
    obtain ⟨hNumbers, hAlike⟩ := hBoth
    cases hPsi : hasPsi (lines text) with
    | true =>
        rw [if_pos hPsi] at hAlike
        exact correct_of_agrees h hNumbers hPsi hAlike
    | false =>
        rw [if_neg (by rw [hPsi]; exact Bool.false_ne_true)] at hAlike
        exact correct_of_absent h hNumbers hPsi hAlike
  · intro hCorrect
    refine ⟨hCorrect.numbers, fun hPsi => ?_⟩
    obtain ⟨d', hParse, -⟩ := hCorrect
    rw [if_neg (by rw [hPsi]; exact Bool.false_ne_true)]
    exact absent_of_accepted h hPsi hParse

end Text

/-! ### Two plain configurations -/

open Mgd.Lib.TomlBasic

def newValues : Values
  | .elevated => .finite (11 / 2)
  | .fullCritical => .finite 20

theorem newValues_ne_nan (k : PsiKey) : newValues k ≠ .nan := by
  intro h
  cases k <;> cases h

def plainText : List Char :=
  "[cache]\nmax_pct = 4.0\n\n[psi]\n# thresholds\nelevated_pct = 3.0\n\n[idle]\nage = 1.0\n".toList

def lineStmt (line : String) (m : Meaning Scalar) : Stmt Scalar := ⟨[line.toList], m⟩

def plainStmts : List (Stmt Scalar) :=
  [lineStmt "[cache]" (.table ["cache".toList]),
    lineStmt "max_pct = 4.0" (.entry ["max_pct".toList] (.decimal 4)),
    lineStmt "" .nothing,
    lineStmt "[psi]" (.table ["psi".toList]),
    lineStmt "# thresholds" .nothing,
    lineStmt "elevated_pct = 3.0" (.entry ["elevated_pct".toList] (.decimal 3)),
    lineStmt "" .nothing,
    lineStmt "[idle]" (.table ["idle".toList]),
    lineStmt "age = 1.0" (.entry ["age".toList] (.decimal 1))]

theorem plain_reading : basic.Reading plainText plainStmts (docOf (meanings plainStmts)) where
  reads := by
    unfold plainStmts lineStmt
    repeat rw [String.toList_ofList]
    decide +kernel
  lines := by
    unfold plainText plainStmts lineStmt
    repeat rw [String.toList_ofList]
    decide
  build := by
    rw [basic_build, build_eq_some_iff]
    exact ⟨by decide, rfl⟩

/-- One key is replaced, and the other one is added in front of the next header. -/
theorem plainText_patched : Correct basic plainText newValues (docOf (meanings plainStmts)) :=
  ((patchPsiBlock_correct plain_reading.parse newValues).2 plainStmts plain_reading).1
    ⟨newValues_ne_nan, by
      unfold plainStmts lineStmt
      repeat rw [String.toList_ofList]
      decide⟩

def commentedHeader : List Char := "[psi] # thresholds\nelevated_pct = 3.0\n".toList

/-- The scanner does not know a header with a comment and appends a second one. -/
theorem commentedHeader_breaks :
    (basic.parse commentedHeader).isSome = true ∧
      basic.parse (patchPsiBlock commentedHeader newValues) = none ∧
      ∀ d, ¬ Correct basic commentedHeader newValues d := by
  have hNone : basic.parse (patchPsiBlock commentedHeader newValues) = none := by
    refine Option.isNone_iff_eq_none.mp ?_
    unfold commentedHeader
    rewrite [String.toList_ofList]
    decide +kernel
  have hSome : (basic.parse commentedHeader).isSome = true := by
    unfold commentedHeader
    rewrite [String.toList_ofList]
    decide
  refine ⟨hSome, hNone, fun d hCorrect => ?_⟩
  obtain ⟨d', hParse, -⟩ := hCorrect
  rw [hNone] at hParse
  cases hParse

end Mgd.PsiPatch
