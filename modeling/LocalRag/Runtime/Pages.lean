import LocalRag.Runtime.Ocr

/-!
# The right text on the right page

A page is known by its number at both ends and by a file name in between, and the only thing that
ties a result to its page is the name of the file it was found in. `parsePages_recognised` follows it
through: whatever the process of a batch leaves behind, a job that returns has taken the value of a
page from the one entry of the page's own batch that names it (`Recognised`). What an engine
that names its results after their pages gives is then a matter of names (`pageOfName_resultFile`).

The other way round, an output is taken only if its entries name the pages of the batch one to
one (`Named`). Two results that have changed names do, so that much is trusted.
-/

namespace LocalRag.Ocr

open LocalRag.Core

variable {ρ κ φ : Type} {host : Host ρ κ φ} {mode : OcrMode}

/-! ## Names -/

theorem digitValue_digit {c : Char} (h : c.isDigit = true) :
    isDecimal c = true ∧ digitValue c = c.toNat - 48 := by
  have hrange : 48 ≤ c.toNat ∧ c.toNat ≤ 57 := by
    have hdigit := h
    simp only [Char.isDigit, Bool.and_eq_true, decide_eq_true_eq] at hdigit
    exact ⟨UInt32.le_iff_toNat_le.mp hdigit.1, UInt32.le_iff_toNat_le.mp hdigit.2⟩
  have hfound : decimalZeros.find? (fun z => z ≤ c.toNat ∧ c.toNat < z + 10) = some 48 :=
    List.find?_cons_of_pos (by simp; omega)
  refine ⟨List.any_eq_true.mpr ⟨48, List.mem_cons_self, by simp; omega⟩, ?_⟩
  unfold digitValue
  rw [hfound]

theorem intOf_digits {digits : List Char} (h : ∀ c ∈ digits, c.isDigit = true) (n : Nat) :
    digits.foldl (fun n c => 10 * n + digitValue c) n = Nat.ofDigitChars 10 digits n := by
  induction digits generalizing n with
  | nil => rfl
  | cons c rest ih =>
    rw [List.foldl_cons, Nat.ofDigitChars_cons, (digitValue_digit (h c List.mem_cons_self)).2]
    exact ih (fun d hd => h d (List.mem_cons_of_mem _ hd)) _

theorem padded_spec (n : Nat) :
    (∀ c ∈ padded n, c.isDigit = true) ∧ intOf (padded n) = n := by
  have hdigits : ∀ c ∈ padded n, c.isDigit = true := by
    intro c hc
    rcases List.mem_append.mp hc with hzero | hdigit
    · rw [List.eq_of_mem_replicate hzero]
      rfl
    · exact Nat.isDigit_of_mem_toDigits (by decide) (by decide) hdigit
  refine ⟨hdigits, ?_⟩
  unfold intOf
  rw [intOf_digits hdigits]
  unfold padded List.leftpad
  rw [Nat.ofDigitChars_append, Nat.ofDigitChars_replicate_zero, Nat.mul_zero]
  exact Nat.ofDigitChars_ten_toDigits

variable {n : Nat}

/-- A result under the name of its page is read as one of this page. -/
theorem pageOfName_resultFile (h : (padded n).length = 6) : pageOfName (resultFile n) = some n := by
  obtain ⟨hdigits, hint⟩ := padded_spec n
  have hname : (resultFile n).toList =
      "page-".toList ++ (padded n ++ "_0_res.json".toList) := by
    unfold resultFile
    rw [String.toList_ofList, List.append_assoc]
  have hdrop : (resultFile n).toList.drop 5 = padded n ++ "_0_res.json".toList := by
    rw [hname]
    exact List.drop_left' rfl
  have htake : ((resultFile n).toList.drop 5).take 6 = padded n := by
    rw [hdrop]
    exact List.take_left' h
  have hrest : (resultFile n).toList.drop 11 = "_0_res.json".toList := by
    rw [show 11 = 6 + 5 from rfl, Nat.add_comm, ← List.drop_drop, hdrop]
    exact List.drop_left' h
  have hall : (padded n).all isDecimal = true :=
    List.all_eq_true.mpr fun c hc => (digitValue_digit (hdigits c hc)).1
  have hbegins : "page-".toList <+: (resultFile n).toList := by
    rw [hname]
    exact List.prefix_append _ _
  unfold pageOfName
  rw [htake, hrest]
  dsimp only
  rw [if_pos ⟨hbegins, h, hall, rfl⟩, hint]

/-! ## One batch -/

/-- A result was read from an entry. -/
def ReadFrom (host : Host ρ κ φ) (mode : OcrMode) (entry : String × κ)
    (result : Nat × ParsedPage φ) : Prop :=
  pageOfName entry.1 = some result.1 ∧
    ∃ r, host.normalize mode entry.2 = .ok r ∧ result.2 = r.page result.1

variable {results : List (Nat × ParsedPage φ)}

theorem collect_ok {expected : List Nat} {entries : List (String × κ)}
    {all : List (Nat × ParsedPage φ)} (h : collect host expected mode entries results = .ok all)
    (hnodup : (results.map (·.1)).Nodup) :
    ∃ read, all = results ++ read ∧ List.Forall₂ (ReadFrom host mode) entries read ∧
      (all.map (·.1)).Nodup ∧ ∀ result ∈ read, result.1 ∈ expected := by
  induction entries generalizing results with
  | nil =>
    cases h
    exact ⟨[], (List.append_nil _).symm, .nil, hnodup, List.forall_mem_nil _⟩
  | cons entry rest ih =>
    obtain ⟨name, content⟩ := entry
    unfold collect at h
    split at h
    · cases h
    · next pageNumber hname =>
      obtain ⟨hin, h⟩ := ite_error_eq_ok.mp h
      obtain ⟨hnew, h⟩ := ite_error_eq_ok.mp h
      obtain ⟨page, hpage, h⟩ := bind_eq_ok.mp h
      have hread : ReadFrom host mode (name, content) (pageNumber, page) := by
        unfold normalizeOcrJson at hpage
        split at hpage
        · cases hpage
        · next r hr => exact ⟨hname, r, hr, (Except.ok.inj hpage).symm⟩
      have hnodup' : ((results ++ [(pageNumber, page)]).map (·.1)).Nodup := by
        rw [List.map_append]
        exact List.nodup_append_comm.mp (List.nodup_cons.mpr ⟨hnew, hnodup⟩)
      obtain ⟨read, hall, hentries, hkeys, hexpected⟩ := ih h hnodup'
      refine ⟨(pageNumber, page) :: read, ?_, .cons hread hentries, hkeys, ?_⟩
      · rw [hall, List.append_assoc]
        rfl
      · exact List.forall_mem_cons.mpr ⟨Decidable.not_not.mp hin, hexpected⟩

/-- The entries of an output that look like results name the pages of the batch, each once. -/
def Named (batch : List Nat) (output : List (String × κ)) : Prop :=
  ((output.filter fun entry => isPageResult entry.1).map fun entry => pageOfName entry.1).Perm
    (batch.map some)

theorem loadOcrResults_ok {output : List (String × κ)} {expected : List Nat}
    (hexpected : expected.Nodup) (h : loadOcrResults host output expected mode = .ok results) :
    (results.map (·.1)).Perm expected ∧ Named expected output ∧
      ∀ result ∈ results, ∃ entry ∈ output, ReadFrom host mode entry result := by
  unfold loadOcrResults at h
  obtain ⟨all, hcollect, h⟩ := bind_eq_ok.mp h
  obtain ⟨hmissing, h⟩ := ite_error_eq_ok.mp h
  cases h
  obtain ⟨read, hall, hentries, hkeys, hin⟩ := collect_ok hcollect List.nodup_nil
  obtain rfl : results = read := hall
  have hperm : (results.map (·.1)).Perm expected := by
    refine (List.perm_ext_iff_of_nodup hkeys hexpected).mpr fun n => ⟨fun hn => ?_, fun hn => ?_⟩
    · obtain ⟨result, hresult, rfl⟩ := List.mem_map.mp hn
      exact hin result hresult
    · by_contra hnot
      have hmem : n ∈ expected.filter fun n => n ∉ results.map (·.1) :=
        List.mem_filter.mpr ⟨hn, decide_eq_true hnot⟩
      rw [Decidable.not_not.mp hmissing] at hmem
      cases hmem
  have hsorted : (pageResults output).Perm (output.filter fun entry => isPageResult entry.1) :=
    List.perm_insertionSort _ _
  refine ⟨hperm, ?_, fun result hresult => ?_⟩
  · have hnames : (pageResults output).map (fun entry => pageOfName entry.1) =
        (results.map (·.1)).map some := by
      rw [List.map_map]
      exact map_eq_map_of_pairs hentries fun _ _ hread => hread.1
    exact (hsorted.map _).symm.trans (hnames ▸ hperm.map some)
  · obtain ⟨entry, hentry, hread⟩ := exists_of_mem_right hentries result hresult
    exact ⟨entry, List.mem_of_mem_filter (hsorted.mem_iff.mp hentry), hread⟩

/-! ## The batches -/

/-- The classes of a function into the numbers below a bound. -/
theorem flatten_classes {α : Type} (f : α → Nat) (xs : List α) (count : Nat) :
    ((List.range count).map fun i => xs.filter fun x => f x = i).flatten.Perm
      (xs.filter fun x => f x < count) := by
  induction count with
  | zero => simp
  | succ count ih =>
    rw [List.range_succ, List.map_append, List.flatten_append]
    have hsplit := List.filter_append_perm (fun x => decide (f x < count))
      (xs.filter fun x => f x < count + 1)
    rw [List.filter_filter, List.filter_filter] at hsplit
    refine (ih.append_right _).trans (List.Perm.trans ?_ hsplit)
    have hbelow : (xs.filter fun x => decide (f x < count) && decide (f x < count + 1)) =
        xs.filter fun x => f x < count :=
      List.filter_congr fun x _ => by simp; omega
    have hlast : (xs.filter fun x => !decide (f x < count) && decide (f x < count + 1)) =
        xs.filter fun x => f x = count :=
      List.filter_congr fun x _ => by
        rw [Bool.eq_iff_iff]
        simp
        omega
    rw [hbelow, hlast]
    simp

/-- Every page is in one batch. -/
theorem processBatches_perm {count : Nat} (hcount : 1 ≤ count) (pages : List Nat) :
    (processBatches count pages).flatten.Perm pages := by
  have hclasses := flatten_classes (fun p : Nat × Nat => p.2 % count) pages.zipIdx count
  have hall : (pages.zipIdx.filter fun p => p.2 % count < count) = pages.zipIdx :=
    List.filter_eq_self.mpr fun p _ => decide_eq_true (Nat.mod_lt _ hcount)
  rw [hall] at hclasses
  have hmap := hclasses.map (·.1)
  rw [List.map_flatten, List.map_map, List.zipIdx_map_fst] at hmap
  exact hmap

variable {pages : List Nat}

variable {batch : List Nat}

theorem processBatches_subset {count : Nat} {index : Nat}
    (h : (processBatches count pages)[index]? = some batch) : batch.Sublist pages := by
  obtain ⟨i, -, rfl⟩ := List.mem_map.mp (List.mem_of_getElem? h)
  have hsub := (List.filter_sublist (p := fun p : Nat × Nat => p.2 % count = i)
    (l := pages.zipIdx)).map (·.1)
  rw [List.zipIdx_map_fst] at hsub
  exact hsub

/-- The input directory of a batch, as far as the source files say. -/
def inputOf (source : String → Option (List ρ)) (batch : List Nat) : List (String × List ρ) :=
  batch.map fun n => (pageFile n, (source (pageFile n)).getD [])

variable {source : String → Option (List ρ)} {content : List ρ}

theorem transferPdf_ok (h : transferPdf source pages = .ok content) :
    List.Forall₂ (fun n page => source (pageFile n) = some [page]) pages content := by
  refine (mapM_eq_ok.mp h).imp fun n page hpage => ?_
  split at hpage
  · cases hpage
  · next p hsource =>
    rw [hsource, Except.ok.inj hpage]
  · cases hpage

theorem batchInput_ok {files : List (String × List ρ)}
    (hsource : List.Forall₂ (fun n page => source (pageFile n) = some [page]) pages content)
    (h : batchInput (pages.zip content) batch = .ok files) : files = inputOf source batch := by
  refine (mapM_eq_map (P := fun _ => True) (fun n _ file hfile => ⟨trivial, ?_⟩) h).2
  split at hfile
  · cases hfile
  · next page hlookup =>
    obtain ⟨_, _, hzip, -⟩ := List.lookup_eq_some_iff.mp hlookup
    have hmem : (n, page) ∈ pages.zip content := by
      rw [hzip]
      exact List.mem_append_right _ List.mem_cons_self
    rw [← Except.ok.inj hfile, List.forall₂_zip hsource hmem]
    rfl

/-! ## One job -/

/-- The batch at this place left this behind. -/
def BatchRun (host : Host ρ κ φ) (source : String → Option (List ρ)) (pages : List Nat)
    (index : Nat) (batch : List Nat) (output : List (String × κ)) : Prop :=
  (processBatches (min host.processCount pages.length) pages)[index]? = some batch ∧
    host.engine index (inputOf source batch) = .ok output

/-- The page was read from an entry of its own batch that names it. -/
def Recognised (host : Host ρ κ φ) (mode : OcrMode) (source : String → Option (List ρ))
    (pages : List Nat) (n : Nat) (page : ParsedPage φ) : Prop :=
  ∃ index batch output, BatchRun host source pages index batch output ∧ n ∈ batch ∧
    ∃ entry ∈ output, ReadFrom host mode entry (n, page)

theorem parseBatch_ok {index : Nat} {files : List (String × List ρ)} (hbatch : batch.Nodup)
    (h : parseBatch host index files batch mode = .ok results) :
    ∃ output, host.engine index files = .ok output ∧ Named batch output ∧
      ∀ result ∈ results, result.1 ∈ batch ∧ ∃ entry ∈ output, ReadFrom host mode entry result := by
  unfold parseBatch at h
  split at h
  · cases h
  · next output houtput =>
    obtain ⟨hperm, hnamed, hread⟩ := loadOcrResults_ok hbatch h
    refine ⟨output, houtput, hnamed, fun result hresult => ⟨?_, hread result hresult⟩⟩
    exact hperm.mem_iff.mp (List.mem_map_of_mem hresult)

variable {parsed : List (Nat × ParsedPage φ)}

theorem parsedPage_mem {page : ParsedPage φ} (h : parsedPage parsed n = .ok page) :
    (n, page) ∈ parsed := by
  unfold parsedPage at h
  split at h
  · cases h
  · next page' hlookup =>
    cases h
    obtain ⟨front, back, hparsed, -⟩ := List.lookup_eq_some_iff.mp hlookup
    rw [← List.mem_reverse, hparsed]
    exact List.mem_append_right _ List.mem_cons_self

theorem process_ok {pages' : List Nat} {json : ResultJson φ} (hnodup : pages.Nodup)
    (hsource : List.Forall₂ (fun n page => source (pageFile n) = some [page]) pages content)
    (h : process host content pages mode = .ok (pages', json)) :
    (∀ index batch output, BatchRun host source pages index batch output → Named batch output) ∧
      ∃ items, json.pages = items.map resultItem ∧
        List.Forall₂ (Recognised host mode source pages) pages items := by
  unfold process at h
  obtain ⟨-, hchecked, h⟩ := bind_eq_ok.mp h
  obtain ⟨-, h⟩ := ite_error_eq_ok.mp h
  obtain ⟨-, h⟩ := ite_error_eq_ok.mp h
  obtain ⟨work, hwork, h⟩ := bind_eq_ok.mp h
  obtain ⟨-, h⟩ := ite_error_eq_ok.mp h
  obtain ⟨results, hresults, h⟩ := bind_eq_ok.mp h
  obtain ⟨-, h⟩ := ite_error_eq_ok.mp h
  obtain ⟨items, hitems, h⟩ := bind_eq_ok.mp h
  cases h
  have hwork' : work = (processBatches (min host.processCount pages.length) pages).map
      fun batch => (inputOf source batch, batch) := by
    refine (mapM_eq_map (P := fun _ => True) (fun batch _ task htask => ⟨trivial, ?_⟩) hwork).2
    obtain ⟨directory, hdirectory, htask⟩ := bind_eq_ok.mp htask
    rw [← Except.ok.inj htask, batchInput_ok hsource hdirectory]
  have hruns := mapM_eq_ok.mp hresults
  -- a task is a batch, at its place
  have htask : ∀ task ∈ work.zipIdx, task.1.1 = inputOf source task.1.2 ∧
      (processBatches (min host.processCount pages.length) pages)[task.2]? = some task.1.2 := by
    intro task hmem
    rw [← @Prod.eta _ _ task, List.mk_mem_zipIdx_iff_getElem?, hwork', List.getElem?_map] at hmem
    obtain ⟨batch, hbatch, heq⟩ := Option.map_eq_some_iff.mp hmem
    rw [← heq]
    exact ⟨rfl, hbatch⟩
  have hrun : ∀ task result, task ∈ work.zipIdx →
      parseBatch host task.2 task.1.1 task.1.2 mode = .ok result → ∃ output,
        BatchRun host source pages task.2 task.1.2 output ∧ Named task.1.2 output ∧
          ∀ r ∈ result, r.1 ∈ task.1.2 ∧ ∃ entry ∈ output, ReadFrom host mode entry r := by
    intro task result hmem hparse
    obtain ⟨hinput, hbatch⟩ := htask task hmem
    obtain ⟨output, houtput, hrest⟩ :=
      parseBatch_ok (hnodup.sublist (processBatches_subset hbatch)) hparse
    exact ⟨output, ⟨hbatch, hinput ▸ houtput⟩, hrest⟩
  refine ⟨fun index batch output hbatchRun => ?_, items, rfl, ?_⟩
  · have hmem : ((inputOf source batch, batch), index) ∈ work.zipIdx := by
      rw [List.mk_mem_zipIdx_iff_getElem?, hwork', List.getElem?_map, hbatchRun.1]
      rfl
    obtain ⟨result, -, hparse⟩ := exists_of_mem_left hruns _ hmem
    obtain ⟨output', ⟨-, houtput⟩, hnamed, -⟩ := hrun _ result hmem hparse
    have hsame : output' = output := Except.ok.inj (houtput.symm.trans hbatchRun.2)
    exact hsame ▸ hnamed
  · refine (mapM_eq_ok.mp hitems).imp fun n page hpage => ?_
    obtain ⟨result, hresult, hin⟩ := List.mem_flatten.mp (parsedPage_mem hpage)
    obtain ⟨task, hmem, hparse⟩ := exists_of_mem_right hruns result hresult
    obtain ⟨output, hbatchRun, -, hread⟩ := hrun task result hmem hparse
    exact ⟨task.2, task.1.2, output, hbatchRun, hread _ hin⟩

theorem methodOf_value (method : ParseMethod) : methodOf (methodValue method) = some method := by
  cases method <;> rfl

theorem readItems_ok {items : List (ParsedPage φ)} {all : List (Nat × ParsedPage φ)}
    (h : readItems (items.map resultItem) parsed = .ok all) :
    all = parsed ++ items.map fun page => (page.pageNumber, page) := by
  induction items generalizing parsed with
  | nil =>
    cases h
    exact (List.append_nil _).symm
  | cons page rest ih =>
    rw [List.map_cons, readItems] at h
    obtain ⟨-, h⟩ := ite_error_eq_ok.mp h
    rw [show (resultItem page).parseMethod = methodValue page.parseMethod from rfl,
      methodOf_value] at h
    have hall := ih h
    rw [hall, List.append_assoc]
    rfl

theorem modeOf_value (mode : OcrMode) : OcrMode.of mode.value = some mode := by
  cases mode <;> rfl

theorem postOcr_ok {request : OcrRequest} {accepted : OcrResponse} {json : ResultJson φ}
    (hmode : request.mode = mode.value) (h : postOcr host content request = .ok (accepted, json)) :
    (∀ n ∈ request.pages, n ≤ 100000) ∧
      ∃ completed, process host content request.pages mode = .ok (completed, json) := by
  unfold postOcr at h
  rw [hmode, modeOf_value] at h
  split at h
  · next mode' hvalid hof =>
    obtain rfl := Option.some.inj hof
    obtain ⟨-, -, -, -, -, hpages, -⟩ := of_decide_eq_true hvalid
    split at h
    · next completed json' hexecute =>
      obtain ⟨-, rfl⟩ := Prod.mk.inj (Except.ok.inj h)
      refine ⟨fun n hn => (of_decide_eq_true (List.all_eq_true.mp hpages n hn)).2, ?_⟩
      unfold execute at hexecute
      obtain ⟨-, hexecute⟩ := ite_error_eq_ok.mp hexecute
      obtain ⟨-, hexecute⟩ := ite_error_eq_ok.mp hexecute
      obtain ⟨-, hexecute⟩ := ite_error_eq_ok.mp hexecute
      obtain ⟨result, hprocess, hexecute⟩ := bind_eq_ok.mp hexecute
      obtain ⟨-, hexecute⟩ := ite_error_eq_ok.mp hexecute
      obtain ⟨-, hexecute⟩ := ite_error_eq_ok.mp hexecute
      cases hexecute
      exact ⟨completed, hprocess⟩
    · cases h
    · cases h
    · cases h
    · cases h
  · cases h

theorem exchange_ok {α : Type} {kind : Exchange} {answer : Except ServiceError α} {a : α}
    (h : exchange host kind answer = .ok a) : answer = .ok a := by
  unfold exchange at h
  split at h
  · exact h
  · cases h

variable {jobId : String} {expectedPages : Finset Nat}

/-- A job that returned: each output names the pages of its batch, and each page is read from
there. -/
theorem runJob_ok (hnodup : pages.Nodup)
    (hsource : List.Forall₂ (fun n page => source (pageFile n) = some [page]) pages content)
    (h : runJob host jobId content expectedPages pages mode = .ok parsed) :
    (∀ index batch output, BatchRun host source pages index batch output → Named batch output) ∧
      (∀ n ∈ pages, n ≤ 100000) ∧ parsed.map (·.1) = pages ∧
      ∀ entry ∈ parsed, Recognised host mode source pages entry.1 entry.2 := by
  unfold runJob at h
  obtain ⟨-, -, h⟩ := bind_eq_ok.mp h
  obtain ⟨⟨accepted, json⟩, haccepted, h⟩ := bind_eq_ok.mp h
  obtain ⟨-, h⟩ := ite_error_eq_ok.mp h
  obtain ⟨payload, hpayload, h⟩ := bind_eq_ok.mp h
  obtain ⟨-, h⟩ := ite_error_eq_ok.mp h
  obtain ⟨-, h⟩ := ite_error_eq_ok.mp h
  obtain ⟨read, hread, h⟩ := bind_eq_ok.mp h
  obtain ⟨-, h⟩ := ite_error_eq_ok.mp h
  cases h
  have hjson : payload = json := by
    have hresult := exchange_ok hpayload
    unfold getResult at hresult
    exact (Except.ok.inj (ite_error_eq_ok.mp hresult).2).symm
  obtain ⟨hbound, completed, hprocess⟩ := postOcr_ok rfl (exchange_ok haccepted)
  obtain ⟨hnamed, items, hitems, hrecognised⟩ := process_ok hnodup hsource hprocess
  rw [hjson, hitems] at hread
  have hparsed := readItems_ok hread
  rw [List.nil_append] at hparsed
  have hnumber : ∀ n page, Recognised host mode source pages n page → n = page.pageNumber := by
    rintro n page ⟨-, -, -, -, -, -, -, -, r, -, hpage⟩
    exact (congrArg ParsedPage.pageNumber hpage).symm
  refine ⟨hnamed, hbound, ?_, fun entry hentry => ?_⟩
  · rw [hparsed, List.map_map]
    have hkeys := map_eq_map_of_pairs (f := id) hrecognised hnumber
    rw [List.map_id] at hkeys
    exact hkeys.symm
  · rw [hparsed] at hentry
    obtain ⟨page, hpage, rfl⟩ := List.mem_map.mp hentry
    obtain ⟨n, -, hrec⟩ := exists_of_mem_right hrecognised page hpage
    rw [← hnumber n page hrec]
    exact hrec

/-! ## An engine that works page by page -/

/-- What the engine calls the result of a file. -/
def resultName (file : String) : String :=
  String.ofList (file.toList.take (file.toList.length - 4) ++ "_0_res.json".toList)

/-- A recogniser of single pages, run over a directory. -/
def pageEngine (recognise : List ρ → Except String κ) (_ : Nat) (input : List (String × List ρ)) :
    Except String (List (String × κ)) :=
  input.mapM fun file => do
    let content ← recognise file.2
    .ok (resultName file.1, content)

theorem resultName_pageFile (n : Nat) : resultName (pageFile n) = resultFile n := by
  have hpdf : ".pdf".toList.length = 4 := by decide
  unfold resultName pageFile resultFile
  rw [String.toList_ofList, List.length_append, hpdf, Nat.add_sub_cancel, List.take_left' rfl]

theorem length_padded (h : n ≤ 100000) : (padded n).length = 6 := by
  have hdigits : (Nat.toDigits 10 n).length ≤ 6 :=
    (Nat.length_toDigits_le_iff (by decide) (by decide)).mpr (by omega)
  unfold padded
  rw [List.length_leftpad]
  omega

/-- Such an engine gives each page what the recogniser makes of its source. -/
theorem recognised_pageEngine {recognise : List ρ → Except String κ}
    (hengine : host.engine = pageEngine recognise) {page : ParsedPage φ}
    (hbound : ∀ m ∈ pages, m ≤ 100000) (h : Recognised host mode source pages n page) :
    ∃ content r, recognise ((source (pageFile n)).getD []) = .ok content ∧
      host.normalize mode content = .ok r ∧ page = r.page n := by
  obtain ⟨index, batch, output, ⟨hbatch, houtput⟩, -, entry, hentry, hname, r, hr, hpage⟩ := h
  rw [hengine] at houtput
  obtain ⟨file, hfile, hread⟩ := exists_of_mem_right (mapM_eq_ok.mp houtput) entry hentry
  obtain ⟨content, hcontent, hread⟩ := bind_eq_ok.mp hread
  cases hread
  obtain ⟨m, hm, rfl⟩ := List.mem_map.mp hfile
  have hsix := length_padded (hbound m ((processBatches_subset hbatch).subset hm))
  -- the name of the entry is that of the file's page
  rw [resultName_pageFile, pageOfName_resultFile hsix] at hname
  obtain rfl := Option.some.inj hname
  exact ⟨content, r, hcontent, hr, hpage⟩

/-! ## The client -/

theorem parsePages_ok {result : List (Nat × ParsedPage φ)}
    (h : parsePages host jobId source expectedPages mode = .ok result) :
    ∃ content, List.Forall₂ (fun n page => source (pageFile n) = some [page])
        (expectedPages.sort (· ≤ ·)) content ∧
      runJob host jobId content expectedPages (expectedPages.sort (· ≤ ·)) mode = .ok result := by
  unfold parsePages at h
  obtain ⟨content, hcontent, h⟩ := bind_eq_ok.mp h
  split at h
  · next parsed hjob =>
    cases h
    exact ⟨content, transferPdf_ok hcontent, hjob⟩
  · cases h

/-- Whose sources are there, and which does not return, raises `OcrError`. -/
theorem parsePages_error
    (hsource : ∀ n ∈ expectedPages, ∃ page, source (pageFile n) = some [page])
    (h : ∀ result, parsePages host jobId source expectedPages mode ≠ .ok result) :
    parsePages host jobId source expectedPages mode =
      .error (.ocr "isolated OCR service request failed") := by
  obtain ⟨content, hcontent⟩ : ∃ content,
      transferPdf source (expectedPages.sort (· ≤ ·)) = .ok content := by
    refine exists_mapM_ok fun n hn => ?_
    obtain ⟨page, hpage⟩ := hsource n ((Finset.mem_sort _).mp hn)
    exact ⟨page, by rw [hpage]⟩
  unfold parsePages at h ⊢
  simp only [hcontent, bind, Except.bind] at h ⊢
  split
  · next parsed hjob =>
    rw [hjob] at h
    exact absurd rfl (h parsed)
  · rfl

theorem parsePages_spec (host : Host ρ κ φ) (jobId : String) (source : String → Option (List ρ))
    (expectedPages : Finset Nat) (mode : OcrMode) :
    (processBatches (min host.processCount (expectedPages.sort (· ≤ ·)).length)
        (expectedPages.sort (· ≤ ·))).flatten.Perm (expectedPages.sort (· ≤ ·)) ∧
      (∀ recognise, host.engine = pageEngine recognise → ∀ result,
        parsePages host jobId source expectedPages mode = .ok result →
          result.map (·.1) = expectedPages.sort (· ≤ ·) ∧
            ∀ entry ∈ result, ∃ page content r, source (pageFile entry.1) = some [page] ∧
              recognise [page] = .ok content ∧ host.normalize mode content = .ok r ∧
                entry.2 = r.page entry.1) ∧
      ∀ index batch output,
        (∀ n ∈ expectedPages, ∃ page, source (pageFile n) = some [page]) →
        BatchRun host source (expectedPages.sort (· ≤ ·)) index batch output →
        ¬Named batch output →
          parsePages host jobId source expectedPages mode =
            .error (.ocr "isolated OCR service request failed") := by
  have hnodup : (expectedPages.sort (· ≤ ·)).Nodup := Finset.sort_nodup _ _
  refine ⟨?_, fun recognise hengine result hresult => ?_,
    fun index batch output hsource hrun hbad => ?_⟩
  · cases hpages : expectedPages.sort (· ≤ ·) with
    | nil => simp [processBatches]
    | cons n rest =>
      have hpos := host.processCount_pos
      exact processBatches_perm (by rw [List.length_cons]; omega) _
  · obtain ⟨content, hcontent, hjob⟩ := parsePages_ok hresult
    obtain ⟨-, hbound, hkeys, hrecognised⟩ := runJob_ok hnodup hcontent hjob
    refine ⟨hkeys, fun entry hentry => ?_⟩
    have hin : entry.1 ∈ expectedPages.sort (· ≤ ·) := hkeys ▸ List.mem_map_of_mem hentry
    obtain ⟨page, -, hpage⟩ := exists_of_mem_left hcontent entry.1 hin
    obtain ⟨content, r, hrecognise, hrest⟩ :=
      recognised_pageEngine hengine hbound (hrecognised entry hentry)
    rw [hpage] at hrecognise
    exact ⟨page, content, r, hpage, hrecognise, hrest⟩
  · refine parsePages_error hsource fun result hresult => ?_
    obtain ⟨content, hcontent, hjob⟩ := parsePages_ok hresult
    exact hbad ((runJob_ok hnodup hcontent hjob).1 index batch output hrun)

/-! ## Two pages -/

/-- A recogniser that gives the content of the page. -/
def readPage (pdf : List Nat) : Except String Nat := .ok (pdf.headD 0)

theorem one_le_maximumProcesses : 1 ≤ 16 := by decide

/-- Nothing fails; a result is its number, as text. -/
def quietHost (engine : Nat → List (String × List Nat) → Except String (List (String × Nat))) :
    Host Nat Nat Unit where
  engine := engine
  normalize := fun _ n => .ok ⟨toString n, []⟩
  processCount := 1
  processCount_pos := by decide
  processCount_le := one_le_maximumProcesses
  pdfBytes := fun _ => 1
  jsonBytes := fun _ => 1
  draining := false
  active := []
  workspaces := []
  cancelled := fun _ => false
  answered := fun _ => true

/-- The source files of the pages 1 and 2. -/
def twoSources (name : String) : Option (List Nat) :=
  if name = "page-000001.pdf" then some [10]
  else if name = "page-000002.pdf" then some [20]
  else none

theorem sort_pair : ({1, 2} : Finset Nat).sort (· ≤ ·) = [1, 2] := by
  have hset : ({1, 2} : Finset Nat) = [1, 2].toFinset := rfl
  rw [hset]
  exact (List.toFinset_sort (· ≤ ·) (by decide)).mpr (by decide)

theorem parsePages_spec_two : ∃ result,
    parsePages (quietHost (pageEngine readPage)) "ocr-0" twoSources {1, 2} .fullPage = .ok result ∧
      result.map (·.1) = [1, 2] := by
  have hok : (parsePages (quietHost (pageEngine readPage)) "ocr-0" twoSources {1, 2}
      .fullPage).toOption.isSome = true := by
    unfold parsePages
    rw [sort_pair]
    decide +kernel
  cases hresult : parsePages (quietHost (pageEngine readPage)) "ocr-0" twoSources {1, 2}
      .fullPage with
  | error e =>
    rw [hresult] at hok
    cases hok
  | ok result =>
    have hkeys := ((parsePages_spec _ _ _ _ _).2.1 readPage rfl result hresult).1
    exact ⟨result, rfl, hkeys.trans sort_pair⟩

/-- The result of a page is there under another name, and not under its own. -/
def Renamed (honest output : List (String × κ)) : Prop :=
  ∃ entry ∈ honest, entry ∉ output ∧ ∃ name, name ≠ entry.1 ∧ (name, entry.2) ∈ output

/-- The results of a batch under each other's names. -/
def swappedEngine (index : Nat) (input : List (String × List Nat)) :
    Except String (List (String × Nat)) := do
  let output ← pageEngine readPage index input
  .ok ((output.map (·.1)).reverse.zip (output.map (·.2)))

/-- Two results that have changed names are returned. -/
theorem parsePages_swapped :
    ¬∀ (host : Host Nat Nat Unit) (jobId : String) (recognise : List Nat → Except String Nat)
      (source : String → Option (List Nat)) (expectedPages : Finset Nat) (mode : OcrMode)
      (index : Nat) (batch : List Nat) (honest output : List (String × Nat)),
      BatchRun host source (expectedPages.sort (· ≤ ·)) index batch output →
        pageEngine recognise index (inputOf source batch) = .ok honest → Renamed honest output →
          ∃ message, parsePages host jobId source expectedPages mode = .error (.ocr message) := by
  intro h
  have hreturns : (parsePages (quietHost swappedEngine) "ocr-0" twoSources {1, 2}
      .fullPage).toOption.isSome = true := by
    unfold parsePages
    rw [sort_pair]
    decide +kernel
  have hraises := h (quietHost swappedEngine) "ocr-0" readPage twoSources {1, 2} .fullPage 0 [1, 2]
    [("page-000001_0_res.json", 10), ("page-000002_0_res.json", 20)]
    [("page-000002_0_res.json", 10), ("page-000001_0_res.json", 20)]
  rw [sort_pair] at hraises
  obtain ⟨message, hmessage⟩ := hraises ⟨by decide +kernel, by rfl⟩ (by rfl)
    ⟨("page-000001_0_res.json", 10), by simp, by simp, "page-000002_0_res.json", by simp, by simp⟩
  rw [hmessage] at hreturns
  cases hreturns

end LocalRag.Ocr
