/-
  A sample contract that shows every construct of the language once or more: regions, comments,
  keywords, operators, strings, and nested blocks.
-/

namespace ContractScan

/-- The lines of the sample contract. -/
def sampleLines : List String :=
  [
    "// region Token",
    "/*",
    " * Minimal fungible token.",
    " */",
    "contract SimpleToken \x7b",
    "    state \x7b",
    "        name: string;",
    "        total_supply: uint;",
    "        balances: map<address, uint>;",
    "    \x7d",
    "",
    "    constructor(name: string, initial_supply: uint) \x7b",
    "        self.name = name;",
    "        total_supply = initial_supply;",
    "        balances[msg.sender] = initial_supply;",
    "    \x7d",
    "",
    "    // #region transfers",
    "    function transfer(to: address, amount: uint) returns bool \x7b",
    "        require(balances[msg.sender] >= amount, \"Insufficient balance\");",
    "",
    "        balances[msg.sender] -= amount;",
    "        balances[to] += amount;",
    "",
    "        emit Transfer(msg.sender, to, amount);",
    "        return true;",
    "    \x7d",
    "    // #endregion",
    "",
    "    view function balance_of(account: address) returns uint \x7b",
    "        return balances[account];",
    "    \x7d",
    "",
    "    event Transfer(from: address, to: address, amount: uint);",
    "\x7d",
    "// endregion"
  ]

/-- The sample contract. -/
def sampleContract : String := String.join (sampleLines.map fun l => l ++ "\n")

end ContractScan
