/-
# OrmpIndexer.Datalens.Client — requests that are repeated and answers that come in pages

`datalens/client.rs` and `datalens/retry.rs`. `queryPages` is given the replies of the server one by one;
it says which bodies it posts and, once a page without a cursor has arrived, what it returns. An attempt of
`postQuery` is one run of it. Delays, the pacing of requests and log lines are left out.

Two things are not what one expects of them. An attempt that ends with a reason that is not retried is
returned even if an earlier attempt served more (`post_query_iff`), and of all pages of one answer only the
last one says how far it is served (`query_pages_iff`).
-/
import OrmpIndexer.Datalens.Query
import OrmpIndexer.Foundation.Task
import Mathlib.Data.Set.Basic

namespace OrmpIndexer

open Foundation

/-! ## One request -/

structure CallError where
  retryable : Bool
  detail : String
deriving DecidableEq, Repr

namespace CallError

/-- `fatal`: the chain of messages in one line. -/
def fatal (error : Error) : CallError := ⟨false, ": ".intercalate error⟩

/-- `retryable`, without its delay. -/
def again (detail : String) : CallError := ⟨true, detail⟩

end CallError

/-- What comes of a request. A status is a number and the text it is shown as. -/
inductive HttpReply where
  | sendFailed (error : String)
  | bodyFailed (error : String)
  | answered (status : Nat) (shown body : String)
deriving DecidableEq, Repr

/-- Too many requests, or an error of the server. -/
def isRetryableHttpStatus (status : Nat) : Bool :=
  status == 429 || decide (500 ≤ status ∧ status < 600)

def sendOnce (operation : String) : HttpReply → Except CallError String
  | .sendFailed error => .error (.again s!"{operation} send failed: {error}")
  | .bodyFailed error => .error (.again s!"{operation} body read failed: {error}")
  | .answered status shown body =>
      if 200 ≤ status ∧ status < 300 then .ok body
      else if isRetryableHttpStatus status then
        .error (.again s!"{operation} failed with status {shown}: {body}")
      else .error (.fatal [s!"{operation} failed with status {shown}: {body}"])

/-! ## Pages -/

section

variable (fromStr : String → Except Error WireQuery)

/-- The page in a reply. -/
def pageOf (reply : HttpReply) : Except CallError QueryPage := do
  let text ← sendOnce "Datalens query" reply
  (parseQueryPage fromStr text).mapError .fatal

/-- `query_pages` from a body with this cursor on: the cursors of the bodies it posts, and its result. Without a
reply it waits. -/
def queryPages (cursor : Option String) (seenCursors : List String) (rows : List Value) :
    List HttpReply → List (Option String) × Option (Except CallError QueryPage)
  | [] => ([cursor], none)
  | reply :: replies =>
      match pageOf fromStr reply with
      | .error error => ([cursor], some (.error error))
      | .ok page =>
          match page.nextCursor with
          | none => ([cursor], some (.ok { page with rows := rows ++ page.rows }))
          | some next =>
              if seenCursors.contains next then
                ([cursor], some (.error (.fatal ["Datalens query repeated page cursor"])))
              else
                let later := queryPages (some next) (next :: seenCursors) (rows ++ page.rows) replies
                (cursor :: later.1, later.2)

end

/-! ## Attempts -/

def IncompleteReason.retriesImmediately : IncompleteReason → Bool
  | pending | providerError => true
  | budgetExhausted | notFollowedYet => false

/-- The guard of the first arm, negated. -/
def QueryPage.retriesImmediately (page : QueryPage) : Bool :=
  page.incompleteReason.any (·.retriesImmediately)

def servedRank (page : QueryPage) : Nat :=
  (page.servedEnd.map fun stop => saturatingAdd stop 1).getD 0

/-- `Option::is_none_or` on the best page so far. -/
def improves (page : QueryPage) : Option QueryPage → Bool
  | none => true
  | some current => decide (servedRank current < servedRank page)

/-- A program that runs `query_pages`. -/
abbrev Attempts (α : Type) := Task Unit (fun _ => QueryPage) CallError α

/-- The loop of `post_query`: the attempts that are left, the number of the next one, and the best page. -/
def postAttempts (maxAttempts : Nat) :
    Nat → Nat → Option QueryPage → Attempts (Except Error QueryPage)
  | 0, _, best => return contextOption "Datalens query produced no response" best
  | left + 1, attempt, best => do
      match ← (Task.await ()).attempt with
      | .ok page =>
          if !page.retriesImmediately then return .ok page
          let best := if improves page best then some page else best
          if attempt = maxAttempts then
            return contextOption "Datalens query produced no response" best
          else postAttempts maxAttempts left (attempt + 1) best
      | .error error =>
          if error.retryable ∧ attempt < maxAttempts then
            postAttempts maxAttempts left (attempt + 1) best
          else
            match best with
            | some page => return .ok page
            | none => return .error [error.detail]

def postQuery (maxAttempts : Nat) : Attempts (Except Error QueryPage) :=
  postAttempts maxAttempts maxAttempts 1 none

/-! ## What an attempt leaves behind -/

/-- Any attempt may come to anything. The outcomes are recorded, the LATEST FIRST. -/
def Received (past : List (Except CallError QueryPage)) (_ : Unit) (r : Except CallError QueryPage)
    (past' : List (Except CallError QueryPage)) : Prop :=
  past' = r :: past

/-- The pages among the outcomes. -/
def pagesOf (past : List (Except CallError QueryPage)) : List QueryPage := past.filterMap (·.toOption)

/-- No page serves more than this one. -/
def ServesMost (pages : List QueryPage) (page : QueryPage) : Prop :=
  ∀ other ∈ pages, servedRank other ≤ servedRank page

/-- If the last attempt gave a page that is not retried, the earlier ones did not serve more. -/
def LastServesMost : List (Except CallError QueryPage) → Prop
  | .ok page :: past => page.retriesImmediately = false → ServesMost (pagesOf past) page
  | _ => True

/-- What is known of the best page before an attempt. -/
structure Kept (past : List (Except CallError QueryPage)) (best : Option QueryPage) : Prop where
  none : best = none → pagesOf past = []
  some : ∀ page, best = some page → page ∈ pagesOf past ∧ ServesMost (pagesOf past) page

/-- What holds of the result. -/
structure Returned (result : Except Error QueryPage) (past : List (Except CallError QueryPage)) :
    Prop where
  error : ∀ error, result = .error error → pagesOf past = []
  page : ∀ page, result = .ok page → page ∈ pagesOf past ∧
    (ServesMost (pagesOf past) page ↔ LastServesMost past)

section

variable {past : List (Except CallError QueryPage)} {best : Option QueryPage}

theorem Kept.keep (h : Kept past best) (page : QueryPage) :
    Kept (.ok page :: past) (if improves page best then .some page else best) := by
  cases best with
  | none =>
      have hnone : pagesOf past = [] := h.none rfl
      refine ⟨nofun, fun kept hkept => ?_⟩
      obtain rfl : page = kept := Option.some.inj hkept
      refine ⟨List.mem_cons_self, fun other hother => ?_⟩
      have hother : other ∈ page :: pagesOf past := hother
      rw [hnone] at hother
      rw [List.mem_singleton.mp hother]
  | some current =>
      obtain ⟨hmem, hmost⟩ := h.some current rfl
      by_cases hlt : servedRank current < servedRank page
      · rw [improves, if_pos (decide_eq_true hlt)]
        refine ⟨nofun, fun kept hkept => ?_⟩
        obtain rfl : page = kept := Option.some.inj hkept
        refine ⟨List.mem_cons_self, fun other hother => ?_⟩
        rcases List.mem_cons.mp hother with rfl | hother
        · exact Nat.le_refl _
        · exact (hmost other hother).trans hlt.le
      · rw [improves, if_neg (by simpa using hlt)]
        refine ⟨nofun, fun kept hkept => ?_⟩
        obtain rfl : current = kept := Option.some.inj hkept
        refine ⟨List.mem_cons_of_mem page hmem, fun other hother => ?_⟩
        rcases List.mem_cons.mp hother with rfl | hother
        · exact Nat.le_of_not_lt hlt
        · exact hmost other hother

theorem Kept.skip (h : Kept past best) (error : CallError) : Kept (.error error :: past) best :=
  ⟨h.none, h.some⟩

/-- The best page is returned where no page ends the loop. -/
theorem Kept.returned (h : Kept past best) (hlast : LastServesMost past) (message : String) :
    Returned (contextOption message best) past := by
  cases best with
  | none => exact ⟨fun _ _ => h.none rfl, nofun⟩
  | some kept =>
      refine ⟨nofun, fun page hpage => ?_⟩
      obtain rfl : kept = page := Except.ok.inj hpage
      obtain ⟨hmem, hmost⟩ := h.some kept rfl
      exact ⟨hmem, iff_of_true hmost hlast⟩

/-- A page that is not retried is returned whatever has been kept. -/
theorem returned_final {page : QueryPage} (hfinal : page.retriesImmediately = false) :
    Returned (.ok page) (.ok page :: past) := by
  refine ⟨nofun, fun page' hpage => ?_⟩
  obtain rfl : page = page' := Except.ok.inj hpage
  refine ⟨List.mem_cons_self, fun hmost _ other hother => ?_, fun hlast other hother => ?_⟩
  · exact hmost other (List.mem_cons_of_mem page hother)
  · rcases List.mem_cons.mp hother with rfl | hother
    · exact Nat.le_refl _
    · exact hlast hfinal other hother

theorem lastServesMost_of_retried {page : QueryPage} (h : page.retriesImmediately = true) :
    LastServesMost (.ok page :: past) := fun hfinal => by
  rw [h] at hfinal
  cases hfinal

theorem wp_postAttempts (maxAttempts left attempt : Nat) (h : Kept past best)
    (hlast : left = 0 → LastServesMost past) :
    Task.Wp Received (fun _ _ => True) Returned (fun _ _ => False)
      (postAttempts maxAttempts left attempt best) past := by
  induction left generalizing attempt best past with
  | zero => exact h.returned (hlast rfl) _
  | succ left ih =>
      refine Task.wp_bind.mpr (Task.wp_attempt.mpr (Task.wp_await.mpr ⟨trivial, ?_, ?_⟩))
      · rintro page _ rfl
        dsimp only
        cases hretries : page.retriesImmediately with
        | false => exact returned_final hretries
        | true =>
            have hmost : LastServesMost (.ok page :: past) := lastServesMost_of_retried hretries
            rw [Bool.not_true, if_neg Bool.false_ne_true]
            split
            · exact (h.keep page).returned hmost _
            · exact ih _ (h.keep page) fun _ => hmost
      · rintro error _ rfl
        dsimp only
        split
        · exact ih _ (h.skip error) fun _ => trivial
        · cases best with
          | none => exact ⟨fun _ _ => h.none rfl, nofun⟩
          | some kept => exact (h.skip error).returned trivial ""

end

/-- **Retrying and served blocks.** Whatever the attempts come to: an error is returned only if none of them gave
a page, and otherwise one of the pages. It is the one that serves most exactly if the page that ended the loop, where
one did, serves no less than the pages that were kept before. -/
theorem post_query_iff (maxAttempts : Nat) {past : List (Except CallError QueryPage)}
    {result : Except Error QueryPage}
    (h : Task.Reaches Received ([], postQuery maxAttempts) (past, .done (.ok result))) :
    (∀ error, result = .error error → pagesOf past = []) ∧
      ∀ page, result = .ok page →
        page ∈ pagesOf past ∧ (ServesMost (pagesOf past) page ↔ LastServesMost past) := by
  have hnothing : Kept [] none := ⟨fun _ => rfl, nofun⟩
  have hwp := (wp_postAttempts maxAttempts maxAttempts 1 hnothing fun _ => trivial).reaches h
  have hreturned : Returned result past := hwp
  exact ⟨hreturned.error, hreturned.page⟩

/-- An answer that is served to this block, without rows. -/
def servedTo (stop : Nat) (reason : Option IncompleteReason) : QueryPage where
  servedStart := some 10
  servedEnd := some stop
  incompleteReason := reason
  nextCursor := none
  rows := []

/-- A server that answers the first attempt like this and later ones like that. -/
def answers (first later : Except CallError QueryPage) (past : List (Except CallError QueryPage))
    (_ : Unit) : Except CallError QueryPage × List (Except CallError QueryPage) :=
  let r := if past.isEmpty then first else later
  (r, r :: past)

theorem received_answers (first later : Except CallError QueryPage)
    (past : List (Except CallError QueryPage)) (op : Unit) :
    Received past op (answers first later past op).1 (answers first later past op).2 := rfl

/-- After a page and an error the page is returned. -/
theorem post_query_iff_error :
    ∃ past, Task.Reaches Received ([], postQuery 2) (past, .done (.ok (.ok (servedTo 14 (some .pending))))) ∧
      ServesMost (pagesOf past) (servedTo 14 (some .pending)) := by
  have hruns := Task.reaches_eval
    (received_answers (.ok (servedTo 14 (some .pending))) (.error (.again "Datalens query send failed")))
    (postQuery 2) []
  exact ⟨_, hruns, ((post_query_iff 2 hruns).2 _ rfl).2.mpr trivial⟩

/-- A page that is served to block 11 is returned although another one was served to block 14. -/
theorem served_blocks_given_back :
    ∃ past page, Task.Reaches Received ([], postQuery 2) (past, .done (.ok (.ok page))) ∧
      ¬ ServesMost (pagesOf past) page := by
  have hruns := Task.reaches_eval
    (received_answers (.ok (servedTo 14 (some .pending))) (.ok (servedTo 11 (some .budgetExhausted))))
    (postQuery 2) []
  refine ⟨_, servedTo 11 (some .budgetExhausted), hruns, fun hmost => ?_⟩
  have hrank : servedRank (servedTo 14 (some .pending)) ≤
      servedRank (servedTo 11 (some .budgetExhausted)) :=
    hmost _ (List.mem_cons_of_mem _ List.mem_cons_self)
  exact absurd hrank (by decide)

/-! ## What pages make up an answer -/

/-- The blocks a page says it serves. -/
def QueryPage.served (page : QueryPage) : Set Nat :=
  {n | ∃ start, page.servedStart = some start ∧ start ≤ n ∧ n ≤ page.servedEnd.getD start}

section

variable {fromStr : String → Except Error WireQuery}

/-- An answer is its last page with the rows of all. Each body but the first has a cursor that was not seen. -/
theorem queryPages_eq_ok {cursor : Option String} {seenCursors : List String} {rows : List Value}
    {replies : List HttpReply} {posted : List (Option String)} {result : QueryPage}
    (h : queryPages fromStr cursor seenCursors rows replies = (posted, some (.ok result)))
    (hused : posted.length = replies.length) :
    ∃ init last, replies.map (pageOf fromStr) = (init ++ [last]).map .ok ∧
      result = { last with rows := rows ++ (init ++ [last]).flatMap (·.rows) } ∧
      posted = cursor :: init.map (·.nextCursor) ∧ (init.map (·.nextCursor)).Nodup ∧
      ∀ page ∈ init, ∃ next, page.nextCursor = some next ∧ next ∉ seenCursors := by
  induction replies generalizing cursor seenCursors rows posted with
  | nil => cases h
  | cons reply replies ih =>
      rw [queryPages] at h
      cases hpage : pageOf fromStr reply with
      | error error =>
          rw [hpage] at h
          cases h
      | ok page =>
          simp only [hpage] at h
          cases hnext : page.nextCursor with
          | none =>
              simp only [hnext] at h
              cases h
              have hnil : replies = [] := List.length_eq_zero_iff.mp (by simpa using hused.symm)
              refine ⟨[], page, ?_, ?_, rfl, List.nodup_nil, nofun⟩
              · rw [hnil, List.map_cons, hpage]
                rfl
              · simp [hnext]
          | some next =>
              simp only [hnext] at h
              split at h
              · cases h
              · rename_i hfresh
                obtain ⟨hposted, hresult⟩ := Prod.mk.inj h
                subst hposted
                obtain ⟨init, last, hpages, hlast, hcursors, hnodup, hunseen⟩ :=
                  ih (Prod.ext rfl hresult) (Nat.succ.inj hused)
                refine ⟨page :: init, last, ?_, ?_, ?_, ?_, ?_⟩
                · rw [List.map_cons, hpage, hpages]
                  rfl
                · rw [hlast]
                  simp
                · rw [List.map_cons, hnext]
                  exact congrArg (cursor :: ·) hcursors
                · rw [List.map_cons, hnext]
                  refine List.nodup_cons.mpr ⟨fun hmem => ?_, hnodup⟩
                  obtain ⟨other, hother, hsame⟩ := List.mem_map.mp hmem
                  obtain ⟨_, hsome, hnew⟩ := hunseen other hother
                  obtain rfl := Option.some.inj (hsome.symm.trans hsame)
                  exact hnew List.mem_cons_self
                · intro other hother
                  rcases List.mem_cons.mp hother with rfl | hother
                  · exact ⟨next, hnext, by simpa using hfresh⟩
                  · obtain ⟨cursor', hsome, hnew⟩ := hunseen other hother
                    exact ⟨cursor', hsome, fun hmem => hnew (List.mem_cons_of_mem next hmem)⟩

/-- **Paged answers.** The rows are those of all pages and no cursor is posted twice. The answer claims no more than
each page served, and hides no reason, exactly if the last page does so. -/
theorem query_pages_iff {replies : List HttpReply} {posted : List (Option String)}
    {result : QueryPage} (h : queryPages fromStr none [] [] replies = (posted, some (.ok result)))
    (hused : posted.length = replies.length) :
    ∃ pages : List QueryPage, replies.map (pageOf fromStr) = pages.map .ok ∧
      result.rows = pages.flatMap (·.rows) ∧ posted.Nodup ∧
      ((∀ page ∈ pages, result.served ⊆ page.served ∧
          (page.incompleteReason.isSome → result.incompleteReason.isSome)) ↔
        ∀ last, pages.getLast? = some last → ∀ page ∈ pages, last.served ⊆ page.served ∧
          (page.incompleteReason.isSome → last.incompleteReason.isSome)) := by
  obtain ⟨init, last, hpages, hresult, hposted, hnodup, hunseen⟩ := queryPages_eq_ok h hused
  refine ⟨init ++ [last], hpages, ?_, ?_, ?_⟩
  · rw [hresult, List.nil_append]
  · rw [hposted]
    refine List.nodup_cons.mpr ⟨fun hmem => ?_, hnodup⟩
    obtain ⟨page, hpage, hnone⟩ := List.mem_map.mp hmem
    obtain ⟨_, hsome, _⟩ := hunseen page hpage
    rw [hsome] at hnone
    cases hnone
  · rw [List.getLast?_concat, hresult]
    exact ⟨fun h => by rintro _ ⟨⟩; exact h, fun h => h last rfl⟩

end

/-! ## Answers in two pages -/

/-- What is read in a body is the page of the reply. -/
theorem pageOf_answered {fromStr : String → Except Error WireQuery} {body : String} {wire : WireQuery}
    (h : fromStr body = .ok wire) : pageOf fromStr (.answered 200 "200 OK" body) =
      .ok ⟨wire.served.map (·.start), wire.served.map (·.stop), wire.incompleteReason, wire.nextCursor,
        wire.rows⟩ := by
  rw [pageOf, sendOnce, if_pos (by decide)]
  show (parseQueryPage fromStr body).mapError CallError.fatal = _
  rw [parseQueryPage, h]
  rfl

/-- A page with a cursor, and the one at the cursor. -/
theorem queryPages_two {fromStr : String → Except Error WireQuery} {first last : HttpReply}
    {page page' : QueryPage} {cursor : String} (hfirst : pageOf fromStr first = .ok page)
    (hcursor : page.nextCursor = some cursor) (hlast : pageOf fromStr last = .ok page')
    (hdone : page'.nextCursor = none) : queryPages fromStr none [] [] [first, last] =
      ([none, some cursor], some (.ok { page' with rows := page.rows ++ page'.rows })) := by
  rw [queryPages, hfirst]
  simp only [hcursor]
  rw [if_neg (by simp), queryPages, hlast]
  simp only [hdone, List.nil_append]

/-- A row of a block. -/
def blockRow (number : Nat) (hash parentHash : String) : Value where
  asLog := .error ["missing field"]
  asBlock := .ok { number, hash, parentHash }

def wideBody : String :=
  "\x7b\"served\":\x7b\"start\":10,\"end\":14\x7d,\"incomplete_reason\":\"pending\",\"rows\":[\x7b\"number\":10,\"hash\":\"0xaa\",\"parent_hash\":\"0x99\"\x7d],\"page\":\x7b\"next_cursor\":\"cursor-1\"\x7d\x7d"

def narrowBody : String :=
  "\x7b\"served\":\x7b\"start\":10,\"end\":11\x7d,\"incomplete_reason\":\"pending\",\"rows\":[\x7b\"number\":11,\"hash\":\"0xbb\",\"parent_hash\":\"0xaa\"\x7d],\"page\":\x7b\"next_cursor\":null\x7d\x7d"

/-- What `serde_json` makes of the two. -/
def fromNarrowingBodies (body : String) : Except Error WireQuery :=
  if body = wideBody then
    .ok ⟨some ⟨10, 14⟩, some .pending, [blockRow 10 "0xaa" "0x99"], some "cursor-1"⟩
  else if body = narrowBody then
    .ok ⟨some ⟨10, 11⟩, some .pending, [blockRow 11 "0xbb" "0xaa"], none⟩
  else .error ["expected value at line 1 column 1"]

/-- The last of two pages is the narrowest, and the answer claims what it served; the rows are those of both. -/
theorem query_pages_iff_narrowing :
    ∃ posted result, ∃ pages : List QueryPage, queryPages fromNarrowingBodies none [] []
        [.answered 200 "200 OK" wideBody, .answered 200 "200 OK" narrowBody] =
          (posted, some (.ok result)) ∧
      [.answered 200 "200 OK" wideBody, .answered 200 "200 OK" narrowBody].map
        (pageOf fromNarrowingBodies) = pages.map .ok ∧
      pages.flatMap (·.rows) = [blockRow 10 "0xaa" "0x99", blockRow 11 "0xbb" "0xaa"] ∧
      ∀ page ∈ pages, result.served ⊆ page.served ∧
        (page.incompleteReason.isSome → result.incompleteReason.isSome) := by
  have hreadWide : fromNarrowingBodies wideBody =
      .ok ⟨some ⟨10, 14⟩, some .pending, [blockRow 10 "0xaa" "0x99"], some "cursor-1"⟩ := if_pos rfl
  have hdiffer : narrowBody ≠ wideBody := by decide +kernel
  have hreadNarrow : fromNarrowingBodies narrowBody =
      .ok ⟨some ⟨10, 11⟩, some .pending, [blockRow 11 "0xbb" "0xaa"], none⟩ :=
    (if_neg hdiffer).trans (if_pos rfl)
  have hwide : pageOf fromNarrowingBodies (.answered 200 "200 OK" wideBody) =
      .ok ⟨some 10, some 14, some .pending, some "cursor-1", [blockRow 10 "0xaa" "0x99"]⟩ :=
    pageOf_answered hreadWide
  have hnarrow : pageOf fromNarrowingBodies (.answered 200 "200 OK" narrowBody) =
      .ok ⟨some 10, some 11, some .pending, none, [blockRow 11 "0xbb" "0xaa"]⟩ :=
    pageOf_answered hreadNarrow
  have hruns := queryPages_two hwide rfl hnarrow rfl
  obtain ⟨pages, hpages, hrows, _, hclaims⟩ := query_pages_iff hruns rfl
  refine ⟨_, _, pages, hruns, hpages, hrows.symm, hclaims.mpr ?_⟩
  have htwo : pages = [⟨some 10, some 14, some .pending, some "cursor-1", [blockRow 10 "0xaa" "0x99"]⟩,
      ⟨some 10, some 11, some .pending, none, [blockRow 11 "0xbb" "0xaa"]⟩] := by
    rw [List.map_cons, List.map_singleton, hwide, hnarrow] at hpages
    exact List.map_injective_iff.mpr (fun _ _ => Except.ok.inj) hpages.symm
  subst htwo
  rintro _ ⟨⟩ page hmem
  refine ⟨?_, fun _ => rfl⟩
  rintro n ⟨start, hstart, hfrom, hto⟩
  obtain rfl := Option.some.inj hstart
  have hend : n ≤ 11 := hto
  rcases List.mem_cons.mp hmem with rfl | hmem
  · exact ⟨10, rfl, hfrom, hend.trans (by decide)⟩
  · obtain rfl := List.mem_singleton.mp hmem
    exact ⟨10, rfl, hfrom, hend⟩

def firstBody : String :=
  "\x7b\"served\":\x7b\"start\":10,\"end\":11\x7d,\"incomplete_reason\":\"pending\",\"rows\":[],\"page\":\x7b\"next_cursor\":\"cursor-1\"\x7d\x7d"

def lastBody : String :=
  "\x7b\"served\":\x7b\"start\":10,\"end\":14\x7d,\"incomplete_reason\":null,\"rows\":[],\"page\":\x7b\"next_cursor\":null\x7d\x7d"

/-- What `serde_json` makes of the two. -/
def fromTwoBodies (body : String) : Except Error WireQuery :=
  if body = firstBody then .ok ⟨some ⟨10, 11⟩, some .pending, [], some "cursor-1"⟩
  else if body = lastBody then .ok ⟨some ⟨10, 14⟩, none, [], none⟩
  else .error ["expected value at line 1 column 1"]

def twoReplies : List HttpReply := [.answered 200 "200 OK" firstBody, .answered 200 "200 OK" lastBody]

theorem pageOf_firstBody : pageOf fromTwoBodies (.answered 200 "200 OK" firstBody) =
    .ok ⟨some 10, some 11, some .pending, some "cursor-1", []⟩ := by
  have hread : fromTwoBodies firstBody = .ok ⟨some ⟨10, 11⟩, some .pending, [], some "cursor-1"⟩ :=
    if_pos rfl
  exact pageOf_answered hread

theorem pageOf_lastBody : pageOf fromTwoBodies (.answered 200 "200 OK" lastBody) =
    .ok ⟨some 10, some 14, none, none, []⟩ := by
  have hdiffer : lastBody ≠ firstBody := by decide +kernel
  have hread : fromTwoBodies lastBody = .ok ⟨some ⟨10, 14⟩, none, [], none⟩ :=
    (if_neg hdiffer).trans (if_pos rfl)
  exact pageOf_answered hread

/-- The first page was served to block 11 and pending; the answer claims block 14 and no reason. -/
theorem window_beyond_page :
    ∃ posted result, ∃ pages : List QueryPage, queryPages fromTwoBodies none [] [] twoReplies =
        (posted, some (.ok result)) ∧
      posted.length = twoReplies.length ∧ twoReplies.map (pageOf fromTwoBodies) = pages.map .ok ∧
      ¬ ∀ page ∈ pages, result.served ⊆ page.served ∧
        (page.incompleteReason.isSome → result.incompleteReason.isSome) := by
  refine ⟨_, _, [⟨some 10, some 11, some .pending, some "cursor-1", []⟩,
    ⟨some 10, some 14, none, none, []⟩], queryPages_two pageOf_firstBody rfl pageOf_lastBody rfl, rfl,
    ?_, fun h => ?_⟩
  · rw [twoReplies, List.map_cons, List.map_singleton, pageOf_firstBody, pageOf_lastBody]
    rfl
  · obtain ⟨hserved, _⟩ := h _ List.mem_cons_self
    obtain ⟨start, hstart, _, hend⟩ := hserved (a := 12) ⟨10, rfl, by decide, by decide⟩
    obtain rfl := Option.some.inj hstart
    exact absurd hend (by decide)

end OrmpIndexer
