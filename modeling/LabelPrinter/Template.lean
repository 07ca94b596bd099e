namespace LabelPrinter.Template

/-- Replaces the occurrences of `pattern` from the left; the next one is looked for behind the end
of the last. `skip` characters of the text already belong to an occurrence. -/
def replaceFrom (pattern value : List Char) : Nat → List Char → List Char
  | _, [] => []
  | skip + 1, _ :: rest => replaceFrom pattern value skip rest
  | 0, c :: rest =>
    if pattern.isPrefixOf (c :: rest) then value ++ replaceFrom pattern value (pattern.length - 1) rest
    else c :: replaceFrom pattern value 0 rest

def replace (pattern value text : List Char) : List Char := replaceFrom pattern value 0 text

def placeholder (key : String) : List Char := "<<<".toList ++ key.toList ++ ">>>".toList

/-- Each parameter is filled in on the result of the ones before it. -/
def fill (template : String) (params : List (String × String)) : String :=
  String.ofList
    (params.foldl (fun text p => replace (placeholder p.1) p.2.toList text) template.toList)

end LabelPrinter.Template
