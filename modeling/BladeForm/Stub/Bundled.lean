/-!
The stub of the form view that needs no template directory.
-/
namespace BladeForm.Stub

def bundledLines : List String := [
  "\x7b\x7b-- [% model_name %] form. Render with: view('[% view_name %]', compact([% view_variables %])) --\x7d\x7d",
  "@extends('[% layout_name %]')",
  "",
  "@section('content')",
  "",
  "    <div class=\"panel panel-default\">",
  "",
  "        <div class=\"panel-heading clearfix\">",
  "",
  "            <span class=\"pull-left\">",
  "                <h4 class=\"mt-5 mb-5\">",
  "                    @isset($[% model_name_singular_variable %])",
  "                        [% model_header %]",
  "                    @else",
  "                        Create New [% model_name_title %]",
  "                    @endisset",
  "                </h4>",
  "            </span>",
  "",
  "            <div class=\"btn-group btn-group-sm pull-right\" role=\"group\">",
  "                <a href=\"\x7b\x7b route('[% index_route_name %]') \x7d\x7d\" class=\"btn btn-primary\" title=\"Show All [% model_name_plural_title %]\">",
  "                    <span class=\"glyphicon glyphicon-th-list\" aria-hidden=\"true\"></span>",
  "                </a>",
  "            </div>",
  "",
  "        </div>",
  "",
  "        <div class=\"panel-body\">",
  "",
  "            @if ($errors->any())",
  "                <ul class=\"alert alert-danger\">",
  "                    @foreach ($errors->all() as $error)",
  "                        <li>\x7b\x7b $error \x7d\x7d</li>",
  "                    @endforeach",
  "                </ul>",
  "            @endif",
  "",
  "            <form method=\"POST\" action=\"\x7b\x7b isset($[% model_name_singular_variable %]) ? route('[% update_route_name %]', $[% model_name_singular_variable %]->getKey()) : route('[% store_route_name %]') \x7d\x7d\" accept-charset=\"UTF-8\" id=\"[% model_name_snake %]_form\" name=\"[% model_name_snake %]_form\" class=\"form-horizontal\">",
  "            \x7b\x7b csrf_field() \x7d\x7d",
  "            @isset($[% model_name_singular_variable %])",
  "                <input name=\"_method\" type=\"hidden\" value=\"PUT\">",
  "            @endisset",
  "",
  "[% form_fields_html %]",
  "",
  "                <div class=\"form-group\">",
  "                    <div class=\"col-md-offset-2 col-md-10\">",
  "                        <input class=\"btn btn-primary\" type=\"submit\" value=\"\x7b\x7b isset($[% model_name_singular_variable %]) ? 'Update' : 'Add' \x7d\x7d\">",
  "                    </div>",
  "                </div>",
  "            </form>",
  "",
  "        </div>",
  "    </div>",
  "",
  "@endsection"]

def bundledForm : String := String.join (bundledLines.map (· ++ "\n"))

end BladeForm.Stub
