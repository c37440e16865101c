import Zuhttp.Library.Cut
import Zuhttp.Proofs.Writer
import Zuhttp.Request

/-!
# A request reads back as it was written

The reference reader knows nothing of the writer: it cuts the bytes at every CRLF, the first
line at its spaces and the others at their first colon and space.
-/

namespace Zuhttp

open Cut

/-! ### What is written -/

/-- The line of a field. -/
def fieldLine (f : Bytes × Bytes) : Bytes := f.1 ++ ascii ": " ++ f.2

/-- Every line is closed by CRLF. -/
def closed (lines : List Bytes) : Bytes := lines.flatMap (fun l => l ++ [13, 10])

lemma closed_append (l m : List Bytes) : closed (l ++ m) = closed l ++ closed m :=
  List.flatMap_append

namespace Headers

/-- The fields of a list as they are written. -/
def fields (h : Headers) : List (Bytes × Bytes) := h.items.map (fun f => (f.name, f.value))

lemma writeItems_appends (items : List Header) : Appends (writeItems items)
    (closed ((items.map (fun f => (f.name, f.value))).map fieldLine)) := by
  induction items with
  | nil => exact appends_pure
  | cons f items ih =>
    have hall := (appends_append f.name).bind ((appends_append (ascii ": ")).bind
      ((appends_append f.value).bind ((appends_append (ascii "\r\n")).bind ih)))
    have hline : f.name ++ (ascii ": " ++ (f.value ++ (ascii "\r\n" ++
        closed ((items.map (fun f => (f.name, f.value))).map fieldLine)))) =
        closed (((f :: items).map (fun f => (f.name, f.value))).map fieldLine) := by
      simp only [closed, fieldLine, List.map_cons, List.flatMap_cons, List.append_assoc]
      rfl
    rw [← hline]
    exact hall

end Headers

namespace Request

/-- The field that the body kind adds. -/
def framingFields (r : Request) : List (Bytes × Bytes) :=
  match r.body with
  | .none => []
  | .length =>
    if r.headers.has (ascii "Content-Length") then []
    else [(ascii "Content-Length", Decimal.decimalText r.contentLength.toNat)]
  | .chunked =>
    if r.headers.has (ascii "Transfer-Encoding") then []
    else [(ascii "Transfer-Encoding", ascii "chunked")]

def requestLine (r : Request) : Bytes := r.method ++ 32 :: (r.target ++ 32 :: ascii "HTTP/1.1")

/-- The lines of the request, without the empty one. -/
def lines (r : Request) : List Bytes :=
  r.requestLine :: (r.headers.fields ++ r.framingFields).map fieldLine

lemma writeFraming_appends (r : Request) :
    Appends r.writeFraming (closed (r.framingFields.map fieldLine)) := by
  unfold writeFraming framingFields
  cases r.body with
  | none => exact appends_pure
  | length =>
    dsimp only
    split_ifs
    · exact appends_pure
    · have hall := (appends_append (ascii "Content-Length: ")).bind
        ((appends_append (Decimal.decimalText r.contentLength.toNat)).bind
          (appends_append (ascii "\r\n")))
      have hline : ascii "Content-Length: " ++
          (Decimal.decimalText r.contentLength.toNat ++ ascii "\r\n") =
          closed ([(ascii "Content-Length", Decimal.decimalText r.contentLength.toNat)].map
            fieldLine) := by
        simp only [closed, fieldLine, List.map_cons, List.map_nil, List.flatMap_cons,
          List.flatMap_nil, List.append_nil, List.append_assoc]
        rfl
      rw [← hline]
      exact hall
  | chunked =>
    dsimp only
    split_ifs
    · exact appends_pure
    · exact appends_append _

/-- A request that is written passes the checks of the method and the target. -/
lemma write_valid {r : Request} {b b' : Buffer} (h : Prog.exec r.write b = (.ok (), b')) :
    methodValid r.method = true ∧ targetValid r.target = true := by
  unfold write at h
  by_cases hmethod : methodValid r.method = true
  · by_cases htarget : targetValid r.target = true
    · exact ⟨hmethod, htarget⟩
    · rw [if_neg (not_not.mpr hmethod), if_pos htarget] at h
      cases h
  · rw [if_pos hmethod] at h
    cases h

/-- A request that is written is its lines and the empty one. -/
lemma write_appends (r : Request) : Appends r.write (closed (r.lines ++ [[]])) := by
  intro b b' hrun
  have hvalid := write_valid hrun
  have hall := (appends_append r.method).bind ((appends_append [32]).bind
    ((appends_append r.target).bind ((appends_append (ascii " HTTP/1.1\r\n")).bind
      ((Headers.writeItems_appends r.headers.items).bind
        (r.writeFraming_appends.bind (appends_append (ascii "\r\n")))))))
  unfold write at hrun
  rw [if_neg (not_not.mpr hvalid.1), if_neg (not_not.mpr hvalid.2)] at hrun
  by_cases hhost : r.form ≠ .authority ∧ ¬r.headers.has (ascii "Host") = true
  · rw [if_pos hhost] at hrun
    cases hrun
  by_cases hboth : r.headers.has (ascii "Content-Length") = true ∧
      r.headers.has (ascii "Transfer-Encoding") = true
  · rw [if_neg hhost, if_pos hboth] at hrun
    cases hrun
  rw [if_neg hhost, if_neg hboth] at hrun
  rw [hall b b' hrun]
  have hstart : closed [r.requestLine] =
      r.method ++ ([32] ++ (r.target ++ ascii " HTTP/1.1\r\n")) := by
    simp only [closed, requestLine, List.flatMap_cons, List.flatMap_nil, List.append_nil,
      List.append_assoc, List.cons_append, List.nil_append]
    rfl
  have hlines : r.lines ++ [[]] =
      [r.requestLine] ++ (r.headers.fields.map fieldLine ++
        (r.framingFields.map fieldLine ++ [[]])) := by
    simp only [lines, List.map_append, List.cons_append, List.nil_append, List.append_assoc]
  rw [hlines, closed_append, closed_append, closed_append, hstart]
  simp only [List.append_assoc]
  rfl

end Request

/-! ### The reference reader -/

/-- A request as its bytes say it. -/
structure WireRequest where
  method : Bytes
  target : Bytes
  version : Bytes
  fields : List (Bytes × Bytes)
  deriving DecidableEq

/-- The fields up to the empty line, behind which nothing may stand. -/
def readFields : List Bytes → Option (List (Bytes × Bytes))
  | [] => none
  | line :: lines =>
    if line = [] then (if lines = [[]] then some [] else none)
    else
      match cutFirst 58 32 line, readFields lines with
      | some f, some fs => some (f :: fs)
      | _, _ => none

def readRequest (s : Bytes) : Option WireRequest :=
  match cutAll 13 10 s with
  | [] => none
  | start :: lines =>
    match splitOn 32 start, readFields lines with
    | [method, target, version], some fields => some ⟨method, target, version, fields⟩
    | _, _ => none

/-- A name and a value that cannot break a line or move the first colon. -/
structure Harmless (f : Bytes × Bytes) : Prop where
  named : f.1 ≠ []
  nameColon : 58 ∉ f.1
  nameBreak : 13 ∉ f.1 ∧ 10 ∉ f.1
  valueBreak : 13 ∉ f.2 ∧ 10 ∉ f.2

lemma notMem_of_all {p : UInt8 → Bool} {s : Bytes} {c : UInt8} (h : s.all p = true)
    (hc : p c = false) : c ∉ s := by
  intro hmem
  rw [List.all_eq_true.mp h c hmem] at hc
  cases hc

lemma all_of_headerNameValid {s : Bytes} (h : headerNameValid s = true) :
    s ≠ [] ∧ s.all isTchar = true := by
  unfold headerNameValid at h
  rw [Bool.and_eq_true, Bool.not_eq_true', List.isEmpty_eq_false_iff] at h
  exact h

lemma harmless_of_valid {name value : Bytes} (hname : headerNameValid name = true)
    (hvalue : headerValueValid value = true) : Harmless (name, value) := by
  obtain ⟨hne, hall⟩ := all_of_headerNameValid hname
  exact ⟨hne, notMem_of_all hall (by decide),
    ⟨notMem_of_all hall (by decide), notMem_of_all hall (by decide)⟩,
    ⟨notMem_of_all hvalue (by decide), notMem_of_all hvalue (by decide)⟩⟩

lemma Headers.fields_harmless (h : Headers) : ∀ f ∈ h.fields, Harmless f := by
  intro f hf
  obtain ⟨item, -, rfl⟩ := List.mem_map.mp hf
  exact harmless_of_valid item.nameValid item.valueValid

/-- `zuh_headers_add` appends the field it was given, byte for byte, or none. -/
lemma Headers.add_fields {h h' : Headers} {name value : Bytes} (hadd : h.add name value = .ok h') :
    h'.fields = h.fields ++ [(name, value)] ∧ Harmless (name, value) := by
  unfold add at hadd
  split_ifs at hadd with hname hvalue
  · cases htotal : h.newBytes name value with
    | none =>
      rw [htotal] at hadd
      cases hadd
    | some total =>
      rw [htotal] at hadd
      dsimp only at hadd
      split_ifs at hadd
      cases hadd
      refine ⟨?_, harmless_of_valid hname hvalue⟩
      simp only [fields, List.map_append, List.map_cons, List.map_nil]

lemma fieldLine_harmless {f : Bytes × Bytes} (h : Harmless f) :
    fieldLine f ≠ [] ∧ 13 ∉ fieldLine f ∧ cutFirst 58 32 (fieldLine f) = some f := by
  have hline : fieldLine f = f.1 ++ 58 :: 32 :: f.2 := by
    rw [fieldLine, List.append_assoc]
    rfl
  refine ⟨?_, ?_, ?_⟩
  · rw [hline]
    simp
  · rw [hline]
    simp [h.nameBreak.1, h.valueBreak.1]
  · rw [hline, cutFirst_append h.nameColon]

lemma readFields_lines {fs : List (Bytes × Bytes)} (h : ∀ f ∈ fs, Harmless f) :
    readFields (fs.map fieldLine ++ [[], []]) = some fs := by
  induction fs with
  | nil => rfl
  | cons f fs ih =>
    rw [List.forall_mem_cons] at h
    obtain ⟨hne, -, hcut⟩ := fieldLine_harmless h.1
    rw [List.map_cons, List.cons_append, readFields, if_neg hne, hcut, ih h.2]

namespace Request

/-- What a reader should make of the request. -/
def onWire (r : Request) : WireRequest :=
  ⟨r.method, r.target, ascii "HTTP/1.1", r.headers.fields ++ r.framingFields⟩

lemma framingFields_harmless (r : Request) : ∀ f ∈ r.framingFields, Harmless f := by
  have hdigits := Decimal.decimalText_digits r.contentLength.toNat
  have hlength : Harmless (ascii "Content-Length", Decimal.decimalText r.contentLength.toNat) := by
    have hvalid : headerNameValid (ascii "Content-Length") = true := by decide
    obtain ⟨hne, hall⟩ := all_of_headerNameValid hvalid
    refine ⟨hne, notMem_of_all hall (by decide),
      ⟨notMem_of_all hall (by decide), notMem_of_all hall (by decide)⟩, ?_, ?_⟩
    · exact fun hmem => absurd (hdigits 13 hmem).1 (by decide)
    · exact fun hmem => absurd (hdigits 10 hmem).1 (by decide)
  have hchunked : Harmless (ascii "Transfer-Encoding", ascii "chunked") :=
    ⟨by decide, by decide, by decide, by decide⟩
  unfold framingFields
  cases r.body with
  | none => exact fun f hf => absurd hf List.not_mem_nil
  | length =>
    dsimp only
    split_ifs
    · exact fun f hf => absurd hf List.not_mem_nil
    · exact fun f hf => List.mem_singleton.mp hf ▸ hlength
  | chunked =>
    dsimp only
    split_ifs
    · exact fun f hf => absurd hf List.not_mem_nil
    · exact fun f hf => List.mem_singleton.mp hf ▸ hchunked

lemma framingFields_length (r : Request) : r.framingFields.length ≤ 1 := by
  unfold framingFields
  cases r.body with
  | none => exact Nat.zero_le _
  | length =>
    dsimp only
    split_ifs <;> simp
  | chunked =>
    dsimp only
    split_ifs <;> simp

lemma requestLine_valid {r : Request} (hmethod : methodValid r.method = true)
    (htarget : targetValid r.target = true) : 13 ∉ r.requestLine ∧
      splitOn 32 r.requestLine = [r.method, r.target, ascii "HTTP/1.1"] := by
  have hname := (all_of_headerNameValid hmethod).2
  have hbytes : r.target.all isTargetByte = true := by
    unfold targetValid at htarget
    rw [Bool.and_eq_true] at htarget
    exact htarget.2
  constructor
  · unfold requestLine
    simp only [List.mem_append, List.mem_cons, not_or]
    exact ⟨notMem_of_all hname (by decide), by decide, notMem_of_all hbytes (by decide),
      by decide, by decide⟩
  · rw [requestLine, splitOn_append (notMem_of_all hname (by decide)),
      splitOn_append (notMem_of_all hbytes (by decide)), splitOn_of_notMem (by decide)]

lemma read_lines {r : Request} (hmethod : methodValid r.method = true)
    (htarget : targetValid r.target = true) :
    cutAll 13 10 (closed (r.lines ++ [[]])) = r.lines ++ [[], []] ∧
      readRequest (closed (r.lines ++ [[]])) = some r.onWire := by
  obtain ⟨hstart, hsplit⟩ := requestLine_valid hmethod htarget
  have hfields : ∀ f ∈ r.headers.fields ++ r.framingFields, Harmless f := by
    intro f hf
    rcases List.mem_append.mp hf with hf | hf
    · exact r.headers.fields_harmless f hf
    · exact r.framingFields_harmless f hf
  have hcut : cutAll 13 10 (closed (r.lines ++ [[]])) = r.lines ++ [[], []] := by
    unfold closed
    rw [cutAll_flatMap]
    · rw [List.append_assoc]
      rfl
    · intro line hline
      unfold lines at hline
      rw [List.cons_append, List.mem_cons, List.mem_append, List.mem_singleton] at hline
      rcases hline with rfl | hline | rfl
      · exact hstart
      · obtain ⟨f, hf, rfl⟩ := List.mem_map.mp hline
        exact (fieldLine_harmless (hfields f hf)).2.1
      · exact List.not_mem_nil
  refine ⟨hcut, ?_⟩
  have hread := readFields_lines hfields
  unfold readRequest
  rw [hcut]
  unfold lines
  rw [List.cons_append]
  dsimp only
  rw [hsplit, hread]
  rfl

/-- A request that is written has the lines it should, no other one, and reads back as it is;
bytes that read back differently were written for another request. The header list stands
for any list built by `zuh_headers_add`. -/
theorem write_reads {r : Request} {b b' : Buffer} (hwrite : Prog.exec r.write b = (.ok (), b')) :
    ∃ out, b'.data = b.data ++ out ∧
      cutAll 13 10 out = r.lines ++ [[], []] ∧
      readRequest out = some r.onWire ∧
      r.framingFields.length ≤ 1 ∧
      (∀ (r₂ : Request) (c c' : Buffer), Prog.exec r₂.write c = (.ok (), c') →
        c'.data = c.data ++ out → r₂.onWire = r.onWire) ∧
      (∀ f ∈ r.headers.fields, Harmless f) ∧
      ∀ (name value : Bytes) (h' : Headers), r.headers.add name value = .ok h' →
        h'.fields = r.headers.fields ++ [(name, value)] ∧ Harmless (name, value) := by
  obtain ⟨hmethod, htarget⟩ := write_valid hwrite
  obtain ⟨hcut, hread⟩ := read_lines hmethod htarget
  refine ⟨closed (r.lines ++ [[]]), r.write_appends b b' hwrite, hcut, hread,
    r.framingFields_length, ?_, r.headers.fields_harmless, fun _ _ _ => Headers.add_fields⟩
  intro r₂ c c' hwrite₂ hsame
  obtain ⟨hmethod₂, htarget₂⟩ := write_valid hwrite₂
  have hread₂ := (read_lines hmethod₂ htarget₂).2
  rw [r₂.write_appends c c' hwrite₂] at hsame
  rw [List.append_cancel_left hsame, hread] at hread₂
  exact (Option.some.inj hread₂).symm

/-- A POST with a body of 42 bytes. -/
theorem write_reads_post :
    let h : Headers := ⟨[⟨ascii "Host", ascii "a.b", by decide, by decide⟩], 0, 0, 0, 0, 0⟩
    let r : Request := ⟨ascii "POST", ascii "/x?y=1", none, .origin, h, .length, 42, false⟩
    ∃ b' out, Prog.exec r.write (Buffer.init 0) = (.ok (), b') ∧ b'.data = out ∧
      readRequest out = some r.onWire := by
  intro h r
  have hwrite : Prog.exec r.write (Buffer.init 0) =
      (.ok (), ⟨ascii "POST /x?y=1 HTTP/1.1\r\nHost: a.b\r\nContent-Length: 42\r\n\r\n", 0,
        false⟩) := by
    decide +kernel
  obtain ⟨out, hdata, -, hread, -⟩ := write_reads hwrite
  exact ⟨_, out, hwrite, hdata, hread⟩

end Request

end Zuhttp
