import WittyService.StreamErrors

/-! One upstream failure with a status is classified alike, whichever adaptor reports it. The
adaptor of openclaw takes status and message out of a text, and trims the message. -/
namespace WittyService

open TextParts TextTrim Utf8Text

namespace StreamErrors

/-- `HTTP <status>: <message>`. -/
def httpText (status : ℕ) (message : CodePoints) : CodePoints :=
  text "HTTP " ++ [48 + status / 100, 48 + status / 10 % 10, 48 + status % 10] ++ text ": " ++
    message

/-- The raw error reports the failure with this status and message. -/
inductive Reports (status : ℕ) (message : CodePoints) : RawError → Prop
  | opencode {raw error : ErrorData} (herror : field raw (text "error") = .mapping error)
      (hstatus : field (mappingOf (field error (text "data"))) (text "statusCode") = .int status)
      (hmessage : field (mappingOf (field error (text "data"))) (text "message") = .str message)
      (hretryable : field (mappingOf (field error (text "data"))) (text "isRetryable") = .none) :
      Reports status message (.opencode raw)
  | openclaw {data : ErrorData} (htext : openclawText data = httpText status message) :
      Reports status message (.openclaw data)
  | dshTurn {error : ErrorData} (hstatus : field error (text "status") = .int status)
      (hmessage : field error (text "message") = .str message) :
      Reports status message (.dshTurn error)
  | exception {exc : RaisedException} (hstatus : exc.statusCode = .int status)
      (hmessage : exc.message = message) : Reports status message (.exception exc)

structure Classification where
  code : CodePoints
  message : CodePoints
  source : StreamErrorSource
  retryable : Bool

def classification (p : StreamErrorPayload) : Classification where
  code := p.code
  message := p.message
  source := p.source
  retryable := p.retryable

/-- The search gives the same with space behind a text. -/
def IgnoresSpace {α : Type*} (search : CodePoints → α) : Prop :=
  ∀ t ws : CodePoints, (∀ c ∈ ws, RuntimeSkills.isSpace c) → search (t ++ ws) = search t

section

variable {py : ErrorTools} {t ws word message : CodePoints} {P Q : CodePoints → Bool} {status : ℕ}

theorem skip_append {p : ℕ → Bool} (hws : ∀ c ∈ ws, RuntimeSkills.isSpace c) :
    ∃ ws', (∀ c ∈ ws', RuntimeSkills.isSpace c) ∧
      (t ++ ws).dropWhile p = t.dropWhile p ++ ws' := by
  rw [List.dropWhile_append]
  split_ifs with hempty
  · refine ⟨ws.dropWhile p, fun c hc => hws c ((List.dropWhile_suffix p).subset hc), ?_⟩
    rw [List.isEmpty_iff.mp hempty, List.nil_append]
  · exact ⟨ws, hws, rfl⟩

section

variable (hword : ∀ c ∈ word, RuntimeSkills.isSpace c = false)
include hword

theorem after_append (hws : ∀ c ∈ ws, RuntimeSkills.isSpace c) :
    after word (t ++ ws) = (after word t).map (· ++ ws) := by
  unfold after
  by_cases hprefix : word <+: t
  · have hlonger : word <+: t ++ ws := List.IsPrefix.trans hprefix (List.prefix_append t ws)
    rw [if_pos (List.isPrefixOf_iff_prefix.mpr hlonger),
      if_pos (List.isPrefixOf_iff_prefix.mpr hprefix), Option.map_some,
      List.drop_append_of_le_length hprefix.length_le]
  · have hnot : ¬ word <+: t ++ ws := by
      cases ws with
      | nil => rwa [List.append_nil]
      | cons c ws =>
        refine fun hlong => hprefix (prefix_of_prefix_break ?_ hlong)
        intro hc
        have hspace := hws c List.mem_cons_self
        rw [hword c hc] at hspace
        cases hspace
    rw [if_neg (mt List.isPrefixOf_iff_prefix.mp hnot),
      if_neg (mt List.isPrefixOf_iff_prefix.mp hprefix), Option.map_none]

theorem ignores_begins :
    IgnoresSpace (begins word) := by
  intro t ws hws
  rw [begins, after_append hword hws, begins, Option.isSome_map]

theorem ignores_after (hP : IgnoresSpace P) : IgnoresSpace fun t => (after word t).any P := by
  intro t ws hws
  dsimp only
  rw [after_append hword hws]
  cases after word t with
  | none => rfl
  | some rest => exact hP rest ws hws

end

theorem ignores_filler (hP : IgnoresSpace P) : IgnoresSpace fun t => P (skipFiller t) := by
  intro t ws hws
  obtain ⟨ws', hws', heq⟩ := skip_append (t := t) (p := fun c => c = 32 || c = 95 || c = 45) hws
  dsimp only
  rw [skipFiller, heq]
  exact hP _ ws' hws'

theorem ignores_or (hP : IgnoresSpace P) (hQ : IgnoresSpace Q) :
    IgnoresSpace fun t => P t || Q t := by
  intro t ws hws
  dsimp only
  rw [hP t ws hws, hQ t ws hws]

theorem spaceless {word : CodePoints} (h : (word.all fun c => !RuntimeSkills.isSpace c) = true) :
    ∀ c ∈ word, RuntimeSkills.isSpace c = false := by
  intro c hc
  simpa using List.all_eq_true.mp h c hc

theorem ignores_hintAt : IgnoresSpace hintAt := by
  have hyour : IgnoresSpace fun t => (after (text "your") (skipFiller t)).any fun t =>
      (after (text "current") (skipFiller t)).any fun t =>
        begins (text "quota") (skipFiller t) := by
    apply ignores_filler (P := fun t => (after (text "your") t).any _)
    apply ignores_after (spaceless (by decide))
    apply ignores_filler (P := fun t => (after (text "current") t).any _)
    apply ignores_after (spaceless (by decide))
    exact ignores_filler (ignores_begins (spaceless (by decide)))
  apply ignores_or
  · apply ignores_or
    · apply ignores_or
      · apply ignores_after (spaceless (by decide))
        exact ignores_or (ignores_filler (ignores_begins (spaceless (by decide))))
          (ignores_filler (ignores_begins (spaceless (by decide))))
      · apply ignores_after (spaceless (by decide))
        exact ignores_or (ignores_filler (ignores_begins (spaceless (by decide))))
          (ignores_filler (ignores_begins (spaceless (by decide))))
    · apply ignores_after (spaceless (by decide))
      exact ignores_or hyour (ignores_after (spaceless (by decide)) hyour)
  · exact ignores_begins (spaceless (by decide))

theorem ignores_tails (hP : IgnoresSpace P) : IgnoresSpace fun t => t.tails.any P := by
  intro t ws hws
  dsimp only
  induction t with
  | nil =>
    have hempty : ∀ u ∈ ws.tails, P u = P [] := fun u hu =>
      hP [] u fun c hc => hws c (((List.mem_tails _ _).mp hu).subset hc)
    cases hnil : P [] with
    | true =>
      rw [List.nil_append, List.any_eq_true.mpr ⟨ws, (List.mem_tails _ _).mpr List.suffix_rfl, ?_⟩]
      · simp [hnil]
      · rw [hempty ws ((List.mem_tails _ _).mpr List.suffix_rfl), hnil]
    | false =>
      have hnone : (ws.tails.any P) = false := by
        rw [List.any_eq_false]
        intro u hu
        rw [hempty u hu, hnil]
        exact Bool.false_ne_true
      rw [List.nil_append, hnone]
      simp [hnil]
  | cons c t ih =>
    rw [List.cons_append, List.tails_cons, List.tails_cons, List.any_cons, List.any_cons, ih,
      ← List.cons_append, hP (c :: t) ws hws]

theorem isSpace_fold {c : ℕ} (h : RuntimeSkills.isSpace c = true) :
    RuntimeSkills.isSpace (fold c) = true := by
  have hall : ∀ l : List ℕ, (l.all fun c => RuntimeSkills.isSpace (fold c)) = true → c ∈ l →
      RuntimeSkills.isSpace (fold c) = true := fun l hl hc => List.all_eq_true.mp hl c hc
  rw [RuntimeSkills.isSpace, decide_eq_true_eq] at h
  exact hall _ (by decide) h

theorem ignores_quotaHint : IgnoresSpace quotaHint := by
  intro t ws hws
  rw [quotaHint, List.map_append, quotaHint]
  apply ignores_tails ignores_hintAt
  intro c hc
  obtain ⟨d, hd, rfl⟩ := List.mem_map.mp hc
  exact isSpace_fold (hws d hd)

theorem threeDigits_append (hws : ∀ c ∈ ws, RuntimeSkills.isSpace c) :
    threeDigits py (t ++ ws) = (threeDigits py t).map fun r => (r.1, r.2 ++ ws) := by
  -- a space is no digit
  have hdigit : ∀ c ∈ ws, py.digit c = none := fun c hc => py.digit_space c (hws c hc)
  match t with
  | a :: b :: c :: rest =>
    simp only [List.cons_append, threeDigits]
    cases py.digit a <;> cases py.digit b <;> cases py.digit c <;> rfl
  | [] =>
    cases ws with
    | nil => rfl
    | cons d ws =>
      have hd := hdigit d List.mem_cons_self
      match ws with
      | [] | [_] => rfl
      | e :: f :: rest => simp [threeDigits, hd]
  | [a] =>
    match ws with
    | [] | [_] => rfl
    | d :: e :: rest =>
      have hd := hdigit d List.mem_cons_self
      simp [threeDigits, hd]
  | [a, b] =>
    match ws with
    | [] => rfl
    | d :: rest =>
      have hd := hdigit d List.mem_cons_self
      simp [threeDigits, hd]

theorem ignores_embeddedBody : IgnoresSpace (embeddedBody py) := by
  intro t ws hws
  obtain ⟨ws₁, hws₁, hskip⟩ := skip_append (t := t) (p := RuntimeSkills.isSpace) hws
  rw [embeddedBody, hskip, threeDigits_append hws₁, embeddedBody]
  cases threeDigits py (t.dropWhile RuntimeSkills.isSpace) with
  | none => rfl
  | some digits =>
    rw [Option.map_some, Option.bind_some, Option.bind_some]
    obtain ⟨ws₂, hws₂, hskip⟩ := skip_append (t := digits.2) (p := RuntimeSkills.isSpace) hws₁
    rw [hskip, after_append (spaceless (by decide)) hws₂]
    cases after [58] (digits.2.dropWhile RuntimeSkills.isSpace) with
    | none => rfl
    | some rest =>
      have hstrip : RuntimeSkills.strip (rest ++ ws₂) = RuntimeSkills.strip rest :=
        trim_append_of_all hws₂
      rw [Option.map_some, Option.bind_some, Option.bind_some, hstrip]

theorem ignores_words : IgnoresSpace words := by
  intro t ws hws
  rw [words, splitOnP_append_of_all hws, List.filter_append, words]
  apply List.append_right_eq_self.mpr
  rw [List.filter_eq_nil_iff]
  intro part hpart
  simp [List.eq_of_mem_replicate hpart]

theorem ignores_line : IgnoresSpace fun t => singleLine (extractEmbedded py t) := by
  intro t ws hws
  dsimp only
  rw [extractEmbedded, ignores_embeddedBody t ws hws, extractEmbedded]
  cases ((embeddedBody py t).bind JsonText.loads).bind innerMessage with
  | none => rw [Option.getD_none, Option.getD_none, singleLine, ignores_words t ws hws, singleLine]
  | some inner => rfl

def statusCodeOf (status : ℕ) (message : CodePoints) : StreamErrorCode :=
  applyQuotaOverride ((classifyFromStatus (some (.int status))).getD .internalError) message
    (some (.int status))

def shared (py : ErrorTools) (status : ℕ) (message : CodePoints) : Classification where
  code := (statusCodeOf status message).value
  message := singleLine (extractEmbedded py message)
  source := .upstream
  retryable := isRetryableCode (statusCodeOf status message)

section

variable (h : 400 ≤ status ∧ status < 600)
include h

theorem isErrorStatus_natCast : IsErrorStatus status := by
  unfold IsErrorStatus
  omega

theorem classifyUpstream_status (codeHint : Option CodePoints) (fallback : StreamErrorCode) :
    classifyUpstream py (some (.int status)) message codeHint fallback =
      statusCodeOf status message := by
  rcases classifyFromStatus_cases status with ⟨-, code, hcode, -⟩ | ⟨hnot, -⟩
  · unfold classifyUpstream statusCodeOf
    rw [hcode]
    rfl
  · exact absurd (isErrorStatus_natCast h) hnot

theorem sourceForCode_status :
    sourceForCode (statusCodeOf status message) = .upstream := by
  rcases classifyFromStatus_cases status with ⟨-, code, hcode, hsource⟩ | ⟨hnot, -⟩
  · rw [statusCodeOf, hcode, Option.getD_some]
    exact upstream_override hsource
  · exact absurd (isErrorStatus_natCast h) hnot

theorem httpPrefix_httpText (hfront : ∀ c ∈ message.head?, RuntimeSkills.isSpace c = false ∧ c ≠ 58)
    :
    httpPrefix py (httpText status message) = some (status, message) := by
  have hafter : after (text "HTTP") (httpText status message) =
      some (32 :: (48 + status / 100) :: (48 + status / 10 % 10) :: (48 + status % 10) :: 58 ::
        32 :: message) := rfl
  have hspace : RuntimeSkills.isSpace (48 + status / 100) = false := by
    apply Bool.eq_false_iff.mpr
    intro hspace
    have hnone := py.digit_space _ hspace
    rw [py.digit_ascii _ (by omega)] at hnone
    cases hnone
  have hmessage : (58 :: 32 :: message).dropWhile (fun c => c = 58 || RuntimeSkills.isSpace c) =
      message := by
    rw [List.dropWhile_cons_of_pos (by decide), List.dropWhile_cons_of_pos (by decide)]
    cases message with
    | nil => rfl
    | cons c message =>
      obtain ⟨hc, hcolon⟩ := hfront c rfl
      exact List.dropWhile_cons_of_neg (by simp [hc, hcolon])
  have hvalue : (status / 100 * 10 + status / 10 % 10) * 10 + status % 10 = status := by omega
  rw [httpPrefix, hafter, Option.bind_some, List.head?_cons, Option.any_some,
    if_pos (by decide), List.dropWhile_cons_of_pos (by decide),
    List.dropWhile_cons_of_neg (by simp [hspace]), threeDigits, py.digit_ascii _ (by omega),
    py.digit_ascii _ (by omega), py.digit_ascii _ (by omega)]
  simp only [Option.bind_some, Option.map_some, List.head?_cons, Option.any_some, py.word_colon,
    Bool.false_eq_true, if_false, hmessage, hvalue]

end

theorem exists_trimmed (hfront : ∀ c ∈ message.head?, RuntimeSkills.isSpace c = false ∧ c ≠ 58) :
    ∃ ws : CodePoints, (∀ c ∈ ws, RuntimeSkills.isSpace c) ∧
      message = RuntimeSkills.strip message ++ ws := by
  obtain ⟨l, r, heq, hl, hr⟩ := exists_eq_append RuntimeSkills.isSpace message
  have hnil : l = [] := by
    cases l with
    | nil => rfl
    | cons c l =>
      have hspace := hl c List.mem_cons_self
      rw [(hfront c (by rw [heq]; rfl)).1] at hspace
      cases hspace
  rw [hnil, List.nil_append] at heq
  exact ⟨r, hr, heq⟩

theorem classification_eq_shared (hstatus : 400 ≤ status ∧ status < 600)
    (hblank : RuntimeSkills.strip message ≠ [])
    (hfront : ∀ c ∈ message.head?, RuntimeSkills.isSpace c = false ∧ c ≠ 58) {raw : RawError}
    (h : Reports status message raw) :
    classification (normalize py raw) = shared py status message := by
  have hne : message ≠ [] := by
    rintro rfl
    exact hblank rfl
  have hgiven : given (.str message) = some message := if_neg hne
  cases h with
  | @opencode _ error herror hcode hmessage hretryable =>
    have hopencode : opencodeMessage (mappingOf (field error (text "data"))) = message := by
      rw [opencodeMessage, hmessage, hgiven, Option.getD_some]
    rw [normalize, normalizeOpencodeError, herror]
    dsimp only
    rw [hopencode, hcode, hretryable, asInt, classifyUpstream_status hstatus]
    have hquota : (decide (statusCodeOf status message ≠ .upstreamQuotaExceeded) &&
        isRetryableCode (statusCodeOf status message)) =
          isRetryableCode (statusCodeOf status message) := by
      by_cases hcode : statusCodeOf status message = .upstreamQuotaExceeded
      · rw [not_retryable_quota hcode, Bool.and_false]
      · rw [decide_eq_true hcode, Bool.true_and]
    rw [hquota]
    rfl
  | openclaw htext =>
    obtain ⟨ws, hws, heq⟩ := exists_trimmed hfront
    rw [normalize, normalizeOpenclawLifecycleError, htext, httpPrefix_httpText hstatus hfront]
    dsimp only
    rw [if_neg hblank, classifyUpstream_status hstatus]
    have hcode : statusCodeOf status (RuntimeSkills.strip message) =
        statusCodeOf status message := by
      conv_rhs => rw [heq]
      rw [statusCodeOf, statusCodeOf, applyQuotaOverride, applyQuotaOverride,
        ignores_quotaHint _ ws hws]
    have hline : singleLine (extractEmbedded py (RuntimeSkills.strip message)) =
        singleLine (extractEmbedded py message) := by
      conv_rhs => rw [heq]
      exact (ignores_line _ ws hws).symm
    rw [hcode, classification, normalizeStreamError, hline, shared]
  | dshTurn hcode hmessage =>
    rw [normalize, normalizeDshTurnError, hmessage, hgiven, Option.getD_some, hcode, asInt,
      classifyUpstream_status hstatus]
    rfl
  | exception hcode hmessage =>
    rw [normalize, normalizeExceptionError, hcode, asInt, Option.some_or]
    dsimp only
    rw [hmessage, messageOr, if_neg hne, classifyUpstream_status hstatus,
      sourceForCode_status hstatus]
    rfl

/-- Any two reports of a failure are classified alike. -/
theorem classification_agrees (hstatus : 400 ≤ status ∧ status < 600)
    (hblank : RuntimeSkills.strip message ≠ [])
    (hfront : ∀ c ∈ message.head?, RuntimeSkills.isSpace c = false ∧ c ≠ 58) {raw raw' : RawError}
    (h : Reports status message raw) (h' : Reports status message raw') :
    classification (normalize py raw) = classification (normalize py raw') :=
  (classification_eq_shared hstatus hblank hfront h).trans
    (classification_eq_shared hstatus hblank hfront h').symm

end

/-- A quota that is used up, with space behind the message. -/
theorem quota_agrees :
    classification (normalize asciiTools (.opencode [(text "error", .mapping [
      (text "name", .str (text "APIError")),
      (text "data", .mapping [(text "message", .str (text "Quota exceeded ")),
        (text "statusCode", .int 429)])])])) =
    classification (normalize asciiTools (.openclaw [
      (text "message", .str (text "HTTP 429: Quota exceeded "))])) :=
  classification_agrees (show 400 ≤ 429 ∧ 429 < 600 by decide)
    (show RuntimeSkills.strip (text "Quota exceeded ") ≠ [] by decide)
    (fun c hc => by cases hc; decide) (.opencode rfl rfl rfl rfl) (.openclaw rfl)

end StreamErrors

end WittyService
