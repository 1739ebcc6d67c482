import Scaffold.Template.Render

/-!
# Template/Library — the templates that every registry of the generator starts with
-/

namespace Scaffold.Template.Library

open Text

/-- The interfaces of a record, and of the requests that create and update it. -/
def modelInterface : String := paragraph
  [r"export interface {{modelName}} {",
   "  id: string;",
   r"{{#each fields}}  {{name}}{{optionalMark}}: {{tsType}};",
   r"{{/each}}{{#if timestamps}}  createdAt: Date;",
   "  updatedAt: Date;",
   r"{{/if}}{{#if softDelete}}  deletedAt?: Date | null;",
   r"{{/if}}}",
   "",
   r"export interface Create{{modelName}}Request {",
   r"{{#each fields}}  {{name}}{{optionalMark}}: {{tsType}};",
   r"{{/each}}}",
   "",
   r"export interface Update{{modelName}}Request {",
   r"{{#each fields}}  {{name}}?: {{tsType}};",
   r"{{/each}}}"]

/-- The controller of a model. -/
def controller : String := paragraph
  [r"import { Request, Response, NextFunction } from 'express';",
   r"import { {{modelName}}Service } from '../services/{{modelName}}Service';",
   r"import { Create{{modelName}}Request, Update{{modelName}}Request } " ++
     r"from '../models/{{modelName}}';",
   "",
   r"export class {{modelName}}Controller {",
   r"  private {{serviceVar}}: {{modelName}}Service;",
   "",
   r"  constructor() {",
   r"    this.{{serviceVar}} = new {{modelName}}Service();",
   r"  }",
   "",
   r"  create = async (req: Request, res: Response, next: NextFunction): Promise<void> => {",
   r"    try {",
   r"      const data: Create{{modelName}}Request = req.body;",
   r"      const result = await this.{{serviceVar}}.create(data);",
   r"      res.status(201).json({ success: true, data: result });",
   r"    } catch (error) {",
   "      next(error);",
   r"    }",
   r"  };",
   "",
   r"  getById = async (req: Request, res: Response, next: NextFunction): Promise<void> => {",
   r"    try {",
   r"      const result = await this.{{serviceVar}}.getById(req.params.id);",
   r"      if (!result) {",
   r"        res.status(404).json({ success: false, message: '{{modelName}} not found' });",
   "        return;",
   r"      }",
   r"      res.json({ success: true, data: result });",
   r"    } catch (error) {",
   "      next(error);",
   r"    }",
   r"  };",
   "",
   r"  getAll = async (req: Request, res: Response, next: NextFunction): Promise<void> => {",
   r"    try {",
   "      const page = Math.max(Number(req.query.page) || 1, 1);",
   "      const limit = Math.min(Math.max(Number(req.query.limit) || 10, 1), 100);",
   r"      const result = await this.{{serviceVar}}.getAll(page, limit);",
   r"      res.json({",
   "        success: true,",
   "        data: result.items,",
   r"        pagination: {",
   "          page,",
   "          limit,",
   "          total: result.total,",
   "          pages: Math.ceil(result.total / limit),",
   r"        },",
   r"      });",
   r"    } catch (error) {",
   "      next(error);",
   r"    }",
   r"  };",
   "",
   r"  update = async (req: Request, res: Response, next: NextFunction): Promise<void> => {",
   r"    try {",
   r"      const data: Update{{modelName}}Request = req.body;",
   r"      const result = await this.{{serviceVar}}.update(req.params.id, data);",
   r"      if (!result) {",
   r"        res.status(404).json({ success: false, message: '{{modelName}} not found' });",
   "        return;",
   r"      }",
   r"      res.json({ success: true, data: result });",
   r"    } catch (error) {",
   "      next(error);",
   r"    }",
   r"  };",
   "",
   r"  delete = async (req: Request, res: Response, next: NextFunction): Promise<void> => {",
   r"    try {",
   r"      const deleted = await this.{{serviceVar}}.delete(req.params.id);",
   r"      if (!deleted) {",
   r"        res.status(404).json({ success: false, message: '{{modelName}} not found' });",
   "        return;",
   r"      }",
   "      res.status(204).send();",
   r"    } catch (error) {",
   "      next(error);",
   r"    }",
   r"  };",
   r"}"]

/-- The table, indexes and trigger of a model for PostgreSQL. -/
def postgresqlSchema : String := unlines
  [r"CREATE TABLE {{tableName}} (",
   r"{{#each columns}}  {{definition}}{{separator}}",
   r"{{/each}});",
   r"{{#each indexes}}",
   r"CREATE INDEX {{indexName}} ON {{tableName}}({{column}});",
   r"{{/each}}{{#each relationships}}",
   r"-- {{kind}}: {{tableName}}.{{sourceColumn}} -> {{targetTable}}.{{targetColumn}}{{cascade}}",
   r"{{/each}}{{#if timestamps}}",
   "-- Keep updated_at current on every update",
   "CREATE OR REPLACE FUNCTION update_updated_at_column()",
   "RETURNS TRIGGER AS $$",
   "BEGIN",
   "  NEW.updated_at = NOW();",
   "  RETURN NEW;",
   "END;",
   "$$ LANGUAGE plpgsql;",
   "",
   r"CREATE TRIGGER update_{{tableName}}_updated_at",
   r"  BEFORE UPDATE ON {{tableName}}",
   "  FOR EACH ROW",
   "  EXECUTE FUNCTION update_updated_at_column();",
   r"{{/if}}"]

/-- The table, indexes and trigger of a model for MySQL. -/
def mysqlSchema : String := unlines
  [r"CREATE TABLE {{tableName}} (",
   r"{{#each columns}}  {{definition}}{{separator}}",
   r"{{/each}}) ENGINE=InnoDB DEFAULT CHARSET=utf8mb4;",
   r"{{#each indexes}}",
   r"CREATE INDEX {{indexName}} ON {{tableName}}({{column}});",
   r"{{/each}}{{#each relationships}}",
   r"-- {{kind}}: {{tableName}}.{{sourceColumn}} -> {{targetTable}}.{{targetColumn}}{{cascade}}",
   r"{{/each}}{{#if timestamps}}",
   "-- Keep updated_at current on every update",
   r"CREATE TRIGGER update_{{tableName}}_updated_at",
   r"  BEFORE UPDATE ON {{tableName}}",
   "  FOR EACH ROW",
   "  SET NEW.updated_at = CURRENT_TIMESTAMP;",
   r"{{/if}}"]

/-- The middleware that accepts bearer tokens. -/
def tokenMiddleware : String := paragraph
  [r"import { Request, Response, NextFunction } from 'express';",
   "import jwt from 'jsonwebtoken';",
   "",
   r"export interface AuthenticatedRequest extends Request {",
   r"  user: {",
   "    userId: string;",
   "    email: string;",
   "    role: string;",
   r"  };",
   r"}",
   "",
   r"export const authenticateToken = (req: Request, res: Response, next: NextFunction): void => {",
   "  const authHeader = req.headers['authorization'];",
   "  const token = authHeader && authHeader.split(' ')[1];",
   "",
   r"  if (!token) {",
   r"    res.status(401).json({ success: false, message: 'Access token required' });",
   "    return;",
   r"  }",
   "",
   r"  try {",
   "    const decoded = jwt.verify(token, process.env.JWT_SECRET as string) as " ++
     "AuthenticatedRequest['user'];",
   "    (req as AuthenticatedRequest).user = decoded;",
   "    next();",
   r"  } catch (error) {",
   r"    res.status(403).json({ success: false, message: 'Invalid or expired token' });",
   r"  }",
   r"};"]

/-- The middleware that checks roles and permissions. -/
def authorizationMiddleware : String := paragraph
  [r"import { Request, Response, NextFunction } from 'express';",
   r"import { AuthenticatedRequest } from './auth';",
   "",
   r"const ROLES: Array<{ name: string; permissions: string[] }> = {{rolesJson}};",
   "",
   r"export const authorize = (...roles: string[]) => {",
   r"  return (req: Request, res: Response, next: NextFunction): void => {",
   "    const user = (req as AuthenticatedRequest).user;",
   r"    if (!user) {",
   r"      res.status(401).json({ success: false, message: 'Authentication required' });",
   "      return;",
   r"    }",
   r"    if (roles.length > 0 && !roles.includes(user.role)) {",
   r"      res.status(403).json({ success: false, message: 'Insufficient permissions' });",
   "      return;",
   r"    }",
   "    next();",
   r"  };",
   r"};",
   r"{{#each roles}}",
   r"export const require{{capitalizedName}} = authorize('{{name}}');",
   r"{{/each}}",
   r"export const hasPermission = (...permissions: string[]) => {",
   r"  return (req: Request, res: Response, next: NextFunction): void => {",
   "    const user = (req as AuthenticatedRequest).user;",
   r"    if (!user) {",
   r"      res.status(401).json({ success: false, message: 'Authentication required' });",
   "      return;",
   r"    }",
   "    const role = ROLES.find((candidate) => candidate.name === user.role);",
   r"    if (!role || !permissions.some((permission) => role.permissions.includes(permission))) {",
   r"      res.status(403).json({ success: false, message: 'Insufficient permissions' });",
   "      return;",
   r"    }",
   "    next();",
   r"  };",
   r"};"]

/-- The interfaces of a user and of signing in. -/
def userModel : String := paragraph
  [r"export type UserRole = {{roleUnion}};",
   "",
   r"export interface User {",
   "  id: string;",
   "  email: string;",
   "  password: string;",
   "  name: string;",
   "  role: UserRole;",
   "  isActive: boolean;",
   "  emailVerified: boolean;",
   "  lastLoginAt?: Date;",
   "  createdAt: Date;",
   "  updatedAt: Date;",
   r"}",
   "",
   r"export interface CreateUserRequest {",
   "  email: string;",
   "  password: string;",
   "  name: string;",
   "  role?: UserRole;",
   r"}",
   "",
   r"export interface LoginRequest {",
   "  email: string;",
   "  password: string;",
   r"}",
   "",
   r"export interface AuthResult {",
   r"{{#if tokenAuth}}  token: string;",
   "  refreshToken: string;",
   r"{{/if}}  user: {",
   "    id: string;",
   "    email: string;",
   "    name: string;",
   "    role: UserRole;",
   r"  };",
   r"}"]

/-- The service that registers users and signs them in. -/
def authService : String := paragraph
  [r"{{#if tokenAuth}}import jwt from 'jsonwebtoken';",
   r"{{/if}}import bcrypt from 'bcryptjs';",
   r"import { UserRepository } from '../repositories/UserRepository';",
   r"import { User, CreateUserRequest, LoginRequest, AuthResult } from '../models/User';",
   "",
   r"export class AuthService {",
   "  private userRepository: UserRepository;",
   "",
   r"  constructor() {",
   "    this.userRepository = new UserRepository();",
   r"  }",
   "",
   r"  async register(userData: CreateUserRequest): Promise<AuthResult> {",
   "    const existingUser = await this.userRepository.findByEmail(userData.email);",
   r"    if (existingUser) {",
   "      throw new Error('User already exists with this email');",
   r"    }",
   "",
   "    const hashedPassword = await bcrypt.hash(userData.password, 12);",
   r"    const user = await this.userRepository.create({",
   "      ...userData,",
   "      password: hashedPassword,",
   r"      role: userData.role || '{{defaultRole}}',",
   "      isActive: true,",
   "      emailVerified: false,",
   r"    });",
   "    return this.buildResult(user);",
   r"  }",
   "",
   r"  async login(credentials: LoginRequest): Promise<AuthResult> {",
   "    const user = await this.userRepository.findByEmail(credentials.email);",
   r"    if (!user || !user.isActive) {",
   "      throw new Error('Invalid credentials');",
   r"    }",
   "",
   "    const isPasswordValid = await bcrypt.compare(credentials.password, user.password);",
   r"    if (!isPasswordValid) {",
   "      throw new Error('Invalid credentials');",
   r"    }",
   "",
   "    await this.userRepository.updateLastLogin(user.id);",
   "    return this.buildResult(user);",
   r"  }",
   "",
   r"  private buildResult(user: User): AuthResult {",
   r"    return {",
   r"{{#if tokenAuth}}      token: this.generateAccessToken(user),",
   "      refreshToken: this.generateRefreshToken(user),",
   r"{{/if}}      user: { id: user.id, email: user.email, name: user.name, role: user.role },",
   r"    };",
   r"  }",
   r"{{#if tokenAuth}}",
   r"  private generateAccessToken(user: User): string {",
   "    return jwt.sign(",
   r"      { userId: user.id, email: user.email, role: user.role },",
   "      process.env.JWT_SECRET as string,",
   r"      { expiresIn: process.env.JWT_EXPIRES_IN || '15m' }",
   "    );",
   r"  }",
   "",
   r"  private generateRefreshToken(user: User): string {",
   "    return jwt.sign(",
   r"      { userId: user.id },",
   "      process.env.JWT_REFRESH_SECRET as string,",
   r"      { expiresIn: '7d' }",
   "    );",
   r"  }",
   r"{{/if}}}"]

/-- The templates and their names. -/
def templates : List (String × String) :=
  [("model-interface", modelInterface),
    ("express-controller", controller),
    ("postgresql-schema", postgresqlSchema),
    ("mysql-schema", mysqlSchema),
    ("jwt-auth-middleware", tokenMiddleware),
    ("authorization-middleware", authorizationMiddleware),
    ("user-model", userModel),
    ("auth-service", authService)]

/-- A registry of the templates. -/
def registry : Registry := (Registry.empty.addAll templates).toOption.getD .empty

end Scaffold.Template.Library
